import WorkflowRepair.Files.Path

/-!
# Names at the end of paths

A path is cut into pieces at its slashes, so the path to an entry of a directory has the name of the
entry as its last piece, however the directory is written (`fileName?_join`).
-/

namespace WorkflowRepair.Files

/-- Bytes under which a directory can hold an entry. -/
structure IsEntryName (name : List UInt8) : Prop where
  noSlash : slash ∉ name
  /-- It is neither empty nor a dot. -/
  names : Path.names name = true
  ne_dotDot : name ≠ dotDot

/-! ## Pieces -/

theorem pieces_of_noSlash {bytes : List UInt8} (h : slash ∉ bytes) : pieces bytes = [bytes] := by
  induction bytes with
  | nil => rfl
  | cons b bytes ih =>
    rw [List.mem_cons, not_or] at h
    rw [pieces, if_neg (Ne.symm h.1), ih h.2]

theorem pieces_ne_nil (bytes : List UInt8) : pieces bytes ≠ [] := by
  cases bytes with
  | nil => exact List.cons_ne_nil _ _
  | cons b bytes =>
    rw [pieces]
    split
    · exact List.cons_ne_nil _ _
    · split <;> exact List.cons_ne_nil _ _

theorem pieces_append (front back : List UInt8) :
    pieces (front ++ slash :: back) = pieces front ++ pieces back := by
  induction front with
  | nil => rfl
  | cons b front ih =>
    rw [List.cons_append, pieces, pieces, ih]
    split
    · rfl
    · obtain ⟨piece, others, hpieces⟩ := List.exists_cons_of_ne_nil (pieces_ne_nil front)
      rw [hpieces]
      rfl

/-! ## Names -/

namespace Path

/-- A last piece that names something is not trimmed. -/
theorem trimPieces_concat {front : List (List UInt8)} {name : List UInt8}
    (hname : names name = true) : trimPieces (front ++ [name]) = front ++ [name] := by
  cases front with
  | nil => rfl
  | cons first front => simp [trimPieces, hname]

theorem fileName?_of_pieces {p : Path} {front : List (List UInt8)} {name : List UInt8}
    (hpieces : pieces p.bytes = front ++ [name]) (hname : IsEntryName name) :
    p.fileName? = some name := by
  have hlast : (trimPieces (pieces p.bytes)).getLast? = some name := by
    rw [hpieces, trimPieces_concat hname.names, List.getLast?_concat]
  have hproper : (names name && name != dotDot) = true := by
    rw [hname.names, Bool.true_and, bne_iff_ne]
    exact hname.ne_dotDot
  rw [fileName?, hlast]
  exact if_pos hproper

theorem exists_pieces_join (directory : Path) {name : List UInt8} (hname : IsEntryName name) :
    ∃ front, pieces (directory.join ⟨name⟩).bytes = front ++ [name] := by
  have hrelative : (Path.mk name).isAbsolute = false := by
    rw [isAbsolute, beq_eq_false_iff_ne]
    intro hhead
    exact hname.noSlash (List.mem_of_mem_head? hhead)
  have halone := pieces_of_noSlash hname.noSlash
  rw [join, hrelative, if_neg Bool.false_ne_true]
  split
  case isTrue h =>
    rw [Bool.or_eq_true, List.isEmpty_iff, endsInSlash, beq_iff_eq] at h
    dsimp only
    rcases h with hempty | hslash
    · exact ⟨[], by rw [hempty, List.nil_append, halone, List.nil_append]⟩
    · -- the slash at the end of the directory is the one in front of the name
      obtain ⟨before, hbefore⟩ := List.getLast?_eq_some_iff.1 hslash
      refine ⟨pieces before, ?_⟩
      rw [hbefore, List.append_assoc, List.singleton_append, pieces_append, halone]
  case isFalse =>
    refine ⟨pieces directory.bytes, ?_⟩
    dsimp only
    rw [pieces_append, halone]

theorem fileName?_join (directory : Path) {name : List UInt8} (hname : IsEntryName name) :
    (directory.join ⟨name⟩).fileName? = some name := by
  obtain ⟨front, hpieces⟩ := exists_pieces_join directory hname
  exact fileName?_of_pieces hpieces hname

end Path

end WorkflowRepair.Files
