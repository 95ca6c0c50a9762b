import WorkflowRepair.Proofs.Script.Line

/-!
# Splicing by offsets

A pass can also be carried out on the bytes of a script: take over what stands between the places of
two removed texts, and write a marker for each of them. Such a cut fails if it ends in front of its
beginning, beyond the script or inside a character. `spliced?_places` says that for the pieces of a
script no cut fails, and that what comes out is the script as it is written.
-/

namespace WorkflowRepair.Repair

/-! ## Cutting -/

/-- The text between two byte offsets, none if they are no bounds of a slice. -/
def textBetween? (text : String) (start stop : String.Pos.Raw) : Option String := do
  let start ← text.pos? start
  let stop ← text.pos? stop
  let slice ← text.slice? start stop
  return slice.copy

theorem pos?_offset {text : String} (p : text.Pos) : text.pos? p.offset = some p := by
  have hvalid : p.offset.isValidForSlice text.toSlice := by
    rw [String.Pos.Raw.isValidForSlice_eq_true_iff]
    exact p.isValid.toSlice
  rw [String.pos?, String.Slice.pos?, dif_pos hvalid]
  rfl

theorem textBetween?_append (front middle back : String) :
    textBetween? (front ++ middle ++ back) front.rawEndPos (front ++ middle).rawEndPos =
      some middle := by
  have hbehind : front ++ middle ++ back = front ++ (middle ++ back) := String.append_assoc
  have hwhole : front ++ middle ++ back = front ++ middle ++ back := rfl
  have hstart := String.Pos.splits_ofEqAppend hbehind
  have hstop := String.Pos.splits_ofEqAppend hwhole
  obtain ⟨hle, hcopy⟩ := String.copy_slice_eq_iff_splits.2 ⟨front, back, hstart, hstop⟩
  have hfirst := pos?_offset (String.Pos.ofEqAppend hbehind)
  have hlast := pos?_offset (String.Pos.ofEqAppend hwhole)
  rw [hstart.offset_eq_rawEndPos] at hfirst
  rw [hstop.offset_eq_rawEndPos] at hlast
  simp [textBetween?, hfirst, hlast, String.slice?, hle, hcopy]

/-! ## Places -/

/-- The removed texts of a script, each with what stands in front of it. -/
def places : List Piece → List (List Char × List Char)
  | [] => []
  | .kept c :: pieces => (places pieces).map fun (pre, text) => (c :: pre, text)
  | .marker removed :: pieces =>
    ([], removed) :: (places pieces).map fun (pre, text) => (removed ++ pre, text)

/-- The byte offsets at which a text behind `pre` begins and ends. -/
def span (pre text : List Char) : String.Pos.Raw × String.Pos.Raw :=
  ((String.ofList pre).rawEndPos, (String.ofList (pre ++ text)).rawEndPos)

/-! ## Splicing -/

/-- Take over what stands between the spans, from the offset `last` on, and write the marker for
each of them. -/
def spliced? (code marker : String) (last : String.Pos.Raw) :
    List (String.Pos.Raw × String.Pos.Raw) → Option String
  | [] => textBetween? code last code.rawEndPos
  | (start, stop) :: spans => do
    let kept ← textBetween? code last start
    let rest ← spliced? code marker stop spans
    return kept ++ marker ++ rest

/-- Splicing behind `front`, when `run` is what was kept since. -/
theorem spliced?_append (marker front run : List Char) (pieces : List Piece) :
    spliced? (String.ofList (front ++ run ++ source pieces)) (String.ofList marker)
        (String.ofList front).rawEndPos
        ((places pieces).map fun (pre, text) => span (front ++ run ++ pre) text) =
      some (String.ofList (run ++ written marker pieces)) := by
  induction pieces generalizing front run with
  | nil =>
    have hcut := textBetween?_append (String.ofList front) (String.ofList run) ""
    rw [String.append_empty, ← String.ofList_append] at hcut
    simpa [places, spliced?, source, written] using hcut
  | cons piece pieces ih =>
    cases piece with
    | kept c =>
      -- a kept character waits for the next cut
      have hrest := ih front (run ++ [c])
      simpa [places, source, written, List.map_map, Function.comp_def] using hrest
    | marker removed =>
      -- what was kept is cut out up to here, and the next cut begins behind the removed text
      have hcut := textBetween?_append (String.ofList front) (String.ofList run)
        (String.ofList (removed ++ source pieces))
      have hrest := ih (front ++ run ++ removed) []
      simp only [span, ← String.ofList_append, List.append_assoc, List.nil_append] at hcut hrest
      simp only [places, source, written, spliced?, span, List.map_cons, List.map_map,
        Function.comp_def, List.append_assoc, List.append_nil, List.nil_append, hcut, hrest,
        Option.bind_eq_bind, Option.bind_some, Option.pure_def, ← String.ofList_append]

/-- By the offsets of its removed texts a script is spliced as it is written. -/
theorem spliced?_places (marker : List Char) (pieces : List Piece) :
    spliced? (String.ofList (source pieces)) (String.ofList marker) 0
        ((places pieces).map fun (pre, text) => span pre text) =
      some (String.ofList (written marker pieces)) :=
  spliced?_append marker [] [] pieces

end WorkflowRepair.Repair
