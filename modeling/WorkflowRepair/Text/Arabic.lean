/-!
# Arabic script

Whether a text uses Arabic script, by the blocks in which its letters and digits stand.
-/

namespace WorkflowRepair.Text

/-- Whether a character stands in the Arabic, Arabic Supplement or Arabic Extended-A block. -/
def isArabic (c : Char) : Bool :=
  let n := c.toNat
  (0x600 ≤ n && n ≤ 0x6FF) || (0x750 ≤ n && n ≤ 0x77F) || (0x8A0 ≤ n && n ≤ 0x8FF)

/-- Whether some character of the text is in Arabic script. -/
def containsArabic (text : String) : Bool := text.toList.any isArabic

end WorkflowRepair.Text
