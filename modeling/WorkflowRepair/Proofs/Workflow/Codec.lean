import WorkflowRepair.Proofs.Json.Printing
import WorkflowRepair.Workflow.Document

/-!
# Documents as text

A document comes back from its own text as it was (`ofText_toText`), if all its numbers are held as
integers. Fractions need not come back: they are read by rounding twice.
-/

namespace WorkflowRepair.Workflow.Document

open Files (Path)
open Json

theorem ofText_eq_ok_iff {path : Path} {text : String} {document : Document} :
    ofText path text = .ok document ↔
      readText text = .ok (.object document.root) ∧ document.path = path := by
  unfold ofText
  rcases document with ⟨path', root⟩
  split
  case h_1 fault heq => simp [heq]
  case h_2 members heq =>
    simp only [heq, Except.ok.injEq, mk.injEq, Value.object.injEq]
    constructor
    · rintro ⟨rfl, rfl⟩
      exact ⟨rfl, rfl⟩
    · rintro ⟨rfl, rfl⟩
      exact ⟨rfl, rfl⟩
  case h_3 v hnot heq =>
    simp only [heq, reduceCtorEq, Except.ok.injEq, false_iff, not_and]
    exact fun hv => absurd hv (hnot root)

/-- What a document holds comes from a text. -/
theorem stored_of_ofText {path : Path} {text : String} {document : Document}
    (h : ofText path text = .ok document) : (Value.object document.root).Stored maxDepth :=
  stored_of_readText (ofText_eq_ok_iff.1 h).1

/-- A document whose numbers stand for integers is read from its own text. -/
theorem ofText_toText_of_within {document : Document}
    (h : (Value.object document.root).Within Number.StoredWhole maxDepth) :
    ofText document.path document.toText = .ok document :=
  ofText_eq_ok_iff.2 ⟨readText_pretty h, rfl⟩

/-- A document whose numbers are all integers comes back from its own text as it was. -/
theorem ofText_toText {path : Path} {text : String} {document : Document}
    (h : ofText path text = .ok document)
    (hintegers : (Value.object document.root).AllIntegers) :
    ofText document.path document.toText = .ok document := by
  refine ofText_toText_of_within (within_of_allNumbers maxDepth (stored_of_ofText h) ?_)
  intro position n hn
  rcases hintegers position n hn with ⟨i, rfl⟩
  exact ⟨i, rfl⟩

/-! ## Documents as bytes -/

/-- The bytes of a file that holds an object with the members. -/
def Encodes (root : Members) (bytes : ByteArray) : Prop :=
  ∃ text, String.fromUTF8? bytes = some text ∧ readText text = .ok (.object root)

theorem ofBytes_eq_ok_iff {path : Path} {bytes : ByteArray} {document : Document} :
    ofBytes path bytes = .ok document ↔ Encodes document.root bytes ∧ document.path = path := by
  unfold ofBytes Encodes
  cases String.fromUTF8? bytes with
  | none => simp
  | some text => simp [ofText_eq_ok_iff]

theorem fromUTF8?_toUTF8 (text : String) : String.fromUTF8? text.toUTF8 = some text := by
  have hvalid : text.toUTF8.IsValidUTF8 := text.isValidUTF8
  rw [String.fromUTF8?, dif_pos hvalid]
  rfl

/-- A document whose numbers stand for integers is encoded by its own text. -/
theorem encodes_toText {document : Document}
    (h : (Value.object document.root).Within Number.StoredWhole maxDepth) :
    Encodes document.root document.toText.toUTF8 :=
  ⟨document.toText, fromUTF8?_toUTF8 _, readText_pretty h⟩

/-- What bytes encode is stored. -/
theorem Encodes.stored {root : Members} {bytes : ByteArray} (h : Encodes root bytes) :
    (Value.object root).Stored maxDepth := by
  rcases h with ⟨text, -, hread⟩
  exact stored_of_readText hread

theorem Encodes.unique {root root' : Members} {bytes : ByteArray} (h : Encodes root bytes)
    (h' : Encodes root' bytes) : root = root' := by
  rcases h with ⟨text, htext, hread⟩
  rcases h' with ⟨text', htext', hread'⟩
  rw [htext, Option.some.injEq] at htext'
  rw [← htext', hread] at hread'
  injection hread' with hread'
  injection hread'

/-! ## An odd document -/

theorem allIntegers_array {items : List Value} (h : ∀ v ∈ items, v.AllIntegers) :
    (Value.array items).AllIntegers := by
  intro position n hn
  cases position with
  | nil => cases hn
  | cons step position =>
    cases step with
    | member key => cases hn
    | item index =>
      rw [Value.at?] at hn
      rcases Option.bind_eq_some_iff.1 hn with ⟨v, hv, hat⟩
      exact h v (List.mem_of_getElem? hv) position n hat

theorem allIntegers_object {members : Members}
    (h : ∀ member ∈ members, member.2.AllIntegers) : (Value.object members).AllIntegers := by
  intro position n hn
  cases position with
  | nil => cases hn
  | cons step position =>
    cases step with
    | item index => cases hn
    | member key =>
      rw [Value.at?] at hn
      rcases Option.bind_eq_some_iff.1 hn with ⟨v, hv, hat⟩
      exact h (key, v) (Members.mem_of_get? hv) position n hat

theorem allIntegers_integer (i : Int) : (Value.number (.integer i)).AllIntegers := by
  intro position n hn
  cases position with
  | nil =>
    injection hn with hn
    injection hn with hn
    exact ⟨i, hn.symm⟩
  | cons step position => cases step <;> cases hn

theorem allIntegers_string (s : String) : (Value.string s).AllIntegers := by
  intro position n hn
  cases position with
  | nil => cases hn
  | cons step position => cases step <;> cases hn

/-- A text with a key that is written twice, both ends of the range of integers, empty containers,
escapes, and blanks in odd places. -/
def oddText : String :=
  "\x7b\"b\": 0,\"a\\u0000\":\"\\ud83d\\ude00\\/\" , \"b\" :[18446744073709551615," ++
    "-9223372036854775808 ,\t\x7b\x7d,[ ],\"\\b\x7f\"]\n\x7d"

/-- The document that the text writes. -/
def oddDocument : Document where
  path := default
  root :=
    [("b", .array [.number (.integer 18446744073709551615),
        .number (.integer (-9223372036854775808)), .object [], .array [], .string "\x08\x7f"]),
      ("a\x00", .string "😀/")]

theorem ofText_oddText : ofText default oddText = .ok oddDocument :=
  ofText_eq_ok_iff.2 ⟨rfl, rfl⟩

theorem allIntegers_oddDocument : (Value.object oddDocument.root).AllIntegers := by
  have hnone : ∀ w ∈ ([] : List Value), w.AllIntegers := fun w hw => absurd hw List.not_mem_nil
  have hitems : ∀ v ∈ [.number (.integer 18446744073709551615),
      .number (.integer (-9223372036854775808)), .object [], .array [], .string "\x08\x7f"],
      Value.AllIntegers v := by
    simp only [List.forall_mem_cons]
    exact ⟨allIntegers_integer _, allIntegers_integer _,
      allIntegers_object fun m hm => absurd hm List.not_mem_nil, allIntegers_array hnone,
      allIntegers_string _, hnone⟩
  refine allIntegers_object ?_
  simp only [oddDocument, List.forall_mem_cons]
  exact ⟨allIntegers_array hitems, allIntegers_string _, fun m hm => absurd hm List.not_mem_nil⟩

theorem ofText_toText_oddDocument :
    ofText default oddText = .ok oddDocument ∧
      ofText oddDocument.path oddDocument.toText = .ok oddDocument :=
  ⟨ofText_oddText, ofText_toText ofText_oddText allIntegers_oddDocument⟩

end WorkflowRepair.Workflow.Document
