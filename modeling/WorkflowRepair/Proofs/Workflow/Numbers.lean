import WorkflowRepair.Proofs.Json.Printing
import WorkflowRepair.Proofs.Rules.Rewriting
import WorkflowRepair.Proofs.Workflow.Codec

/-!
# Numbers in patched documents

What is held for a number at some position of a text is printed at the same position of the patched
document (`at?_of_value?`, `keepsNumbers_patch`, `at?_ofValue`). So an integer literal in the range of
integers denotes the same integer afterwards (`integers_kept`); one out of range is held as a
fraction, and its printed form denotes another number (`largeInteger_altered`).
-/

namespace WorkflowRepair.Workflow

open Files (Path)
open Json Repair

/-! ## Positions in a text -/

theorem getElem?_of_itemValues? {items : List Source} {vs : List Value} {index : Nat}
    {source : Source} (h : itemValues? items = some vs) (hsource : items[index]? = some source) :
    ∃ v, vs[index]? = some v ∧ source.value? = some v := by
  induction items generalizing vs index with
  | nil => cases hsource
  | cons first rest ih =>
    rw [itemValues?] at h
    split at h
    case h_1 w ws hfirst hrest =>
      injection h with h
      subst h
      cases index with
      | zero =>
        injection hsource with hsource
        subst hsource
        exact ⟨w, rfl, hfirst⟩
      | succ index =>
        rcases ih hrest hsource with ⟨v, hv, hvalue⟩
        exact ⟨v, hv, hvalue⟩
    case h_2 => cases h

/-- Of the pairs that are collected the last one under a key counts. -/
theorem get?_foldl_insert {members : List (String × Source)} {pairs : List (String × Value)}
    (h : memberValues? members = some pairs) (key : String) (collected : Members) :
    (∀ source, lastUnder? key members = some source → ∃ v, source.value? = some v ∧
      Members.get? key (pairs.foldl (fun members pair => Members.insert pair.1 pair.2 members)
        collected) = some v) ∧
    (lastUnder? key members = none →
      Members.get? key (pairs.foldl (fun members pair => Members.insert pair.1 pair.2 members)
        collected) = Members.get? key collected) := by
  induction members generalizing pairs collected with
  | nil =>
    injection h with h
    subst h
    exact ⟨fun source hsource => (by cases hsource), fun _ => rfl⟩
  | cons member members ih =>
    rcases member with ⟨k, first⟩
    rw [memberValues?] at h
    split at h
    case h_1 w ws hfirst hrest =>
      injection h with h
      subst h
      rcases ih hrest (Members.insert k w collected) with ⟨hsome, hnone⟩
      rw [lastUnder?]
      -- a member further on under the key comes first
      cases hlast : lastUnder? key members with
      | some last =>
        refine ⟨fun source hsource => ?_, fun hsource => by cases hsource⟩
        injection hsource with hsource
        subst hsource
        exact hsome last hlast
      | none =>
        have hget := hnone hlast
        by_cases hk : k = key
        · subst hk
          rw [Members.get?_insert_self] at hget
          refine ⟨fun source hsource => ⟨w, ?_, hget⟩, fun hsource => ?_⟩
          · rw [if_pos rfl] at hsource
            injection hsource with hsource
            rw [← hsource, hfirst]
          · rw [if_pos rfl] at hsource
            cases hsource
        · rw [Members.get?_insert_ne _ _ (Ne.symm hk)] at hget
          refine ⟨fun source hsource => ?_, fun _ => hget⟩
          rw [if_neg hk] at hsource
          cases hsource
    case h_2 => cases h

theorem get?_of_memberValues? {members : List (String × Source)} {pairs : List (String × Value)}
    {key : String} {source : Source} (h : memberValues? members = some pairs)
    (hsource : lastUnder? key members = some source) :
    ∃ v, Members.get? key (collectMembers pairs) = some v ∧ source.value? = some v := by
  rcases (get?_foldl_insert h key []).1 source hsource with ⟨v, hvalue, hget⟩
  exact ⟨v, hget, hvalue⟩

/-- What stands at a position of a text is held at the same position. -/
theorem at?_of_value? {source s : Source} {v : Value} {position : List Step}
    (h : source.value? = some v) (hs : source.at? position = some s) :
    ∃ w, v.at? position = some w ∧ s.value? = some w := by
  induction position generalizing source v with
  | nil =>
    injection hs with hs
    subst hs
    exact ⟨v, rfl, h⟩
  | cons step position ih =>
    cases source with
    | array items =>
      cases step with
      | member key => cases hs
      | item index =>
        rw [Source.value?] at h
        rcases Option.map_eq_some_iff.1 h with ⟨vs, hvalues, rfl⟩
        rw [Source.at?] at hs
        rcases Option.bind_eq_some_iff.1 hs with ⟨source, hsource, hat⟩
        rcases getElem?_of_itemValues? hvalues hsource with ⟨v, hv, hvalue⟩
        rcases ih hvalue hat with ⟨w, hw, hsw⟩
        exact ⟨w, by rw [Value.at?, hv]; exact hw, hsw⟩
    | object members =>
      cases step with
      | item index => cases hs
      | member key =>
        rw [Source.value?] at h
        rcases Option.map_eq_some_iff.1 h with ⟨pairs, hvalues, rfl⟩
        rw [Source.at?] at hs
        rcases Option.bind_eq_some_iff.1 hs with ⟨source, hsource, hat⟩
        rcases get?_of_memberValues? hvalues hsource with ⟨v, hv, hvalue⟩
        rcases ih hvalue hat with ⟨w, hw, hsw⟩
        exact ⟨w, by rw [Value.at?, hv]; exact hw, hsw⟩
    | _ => cases step <;> cases hs

/-! ## Positions in a printed value -/

section

variable {literal : Number → Literal}

theorem getElem?_ofItems (items : List Value) (index : Nat) :
    (Source.ofItems literal items)[index]? = items[index]?.map (Source.ofValue literal) := by
  induction items generalizing index with
  | nil => rfl
  | cons v items ih =>
    cases index with
    | zero => rfl
    | succ index => exact ih index

/-- Where the keys differ, the last member under a key is the only one. -/
theorem lastUnder?_ofMembers {members : Members} (hkeys : (Members.keys members).Nodup)
    (key : String) : lastUnder? key (Source.ofMembers literal members) =
      (Members.get? key members).map (Source.ofValue literal) := by
  induction members with
  | nil => rfl
  | cons member members ih =>
    rcases member with ⟨k, v⟩
    rcases List.nodup_cons.1 hkeys with ⟨hfirst, hrest⟩
    rw [Source.ofMembers, lastUnder?, ih hrest, Members.get?]
    by_cases hk : k = key
    · have hnone : Members.get? key members = none := by
        have habsent := Members.contains_eq_false_of_not_mem (hk ▸ hfirst)
        simpa [Members.contains] using habsent
      rw [if_pos hk, if_pos hk, hnone]
      rfl
    · rw [if_neg hk, if_neg hk, Option.or_none]

/-- What stands at a position of a value is printed at the same position. -/
theorem at?_ofValue {N : Number → Prop} {depth : Nat} {v w : Value} {position : List Step}
    (h : v.Within N depth) (hw : v.at? position = some w) :
    (Source.ofValue literal v).at? position = some (Source.ofValue literal w) := by
  induction position generalizing v depth with
  | nil =>
    injection hw with hw
    subst hw
    rfl
  | cons step position ih =>
    cases v with
    | array items =>
      cases step with
      | member key => cases hw
      | item index =>
        rcases h.exists_items with ⟨inner, -, hitems⟩
        rw [Value.at?] at hw
        rcases Option.bind_eq_some_iff.1 hw with ⟨v, hv, hat⟩
        rw [Source.ofValue, Source.at?, getElem?_ofItems, hv]
        exact ih (hitems v (List.mem_of_getElem? hv)) hat
    | object members =>
      cases step with
      | item index => cases hw
      | member key =>
        rcases h.exists_members with ⟨inner, -, hkeys, hmembers⟩
        rw [Value.at?] at hw
        rcases Option.bind_eq_some_iff.1 hw with ⟨v, hv, hat⟩
        rw [Source.ofValue, Source.at?, lastUnder?_ofMembers hkeys, hv]
        exact ih (hmembers _ (Members.mem_of_get? hv)) hat
    | _ => cases step <;> cases hw

end

/-! ## Patched documents -/

/-- A number in the text of a document stands at the same position of the text of the patched
document, printed as it was held. -/
theorem exists_printed (set : RuleSet) {path : Path} {text : String} {document : Document}
    {source : Source} (hread : Document.ofText path text = .ok document)
    (hsource : SpellsText source text) :
    ∃ source', SpellsText source' (set.patch document).1.toText ∧
      ∀ position literal, source.at? position = some (.number literal) →
        ∃ n literal', literal.number? = some n ∧ Writes literal' n ∧
          source'.at? position = some (.number literal') := by
  choose literal hliteral using exists_writes
  have hroot := (Document.ofText_eq_ok_iff.1 hread).1
  have hstored : (Value.object (set.patch document).1.root).Within Number.Stored maxDepth :=
    within_patch set (Document.stored_of_ofText hread)
  have hvalue := readText_of_spells hsource
  rw [hroot] at hvalue
  refine ⟨_, spellsText_pretty (fun n _ => (hliteral n).text) hstored, fun position l hl => ?_⟩
  rcases at?_of_value? hvalue.symm hl with ⟨w, hw, hnumber⟩
  rw [Source.value?] at hnumber
  rcases Option.map_eq_some_iff.1 hnumber with ⟨n, hn, rfl⟩
  have hkept := keepsNumbers_patch set document position n hw
  exact ⟨n, literal n, hn, hliteral n, at?_ofValue hstored hkept⟩

/-- Every accepted text has a tree, and whatever tree it has, an integer literal in the range of
integers denotes the same integer at the same position of the text of the patched document. -/
theorem integers_kept (set : RuleSet) {path : Path} {text : String} {document : Document}
    (hread : Document.ofText path text = .ok document) :
    (∃ source, SpellsText source text) ∧
    ∀ source, SpellsText source text →
      ∃ source', SpellsText source' (set.patch document).1.toText ∧
        ∀ position literal i, source.at? position = some (.number literal) →
          literal.integer? = some i → -(2 ^ 63 : Int) ≤ i → i < 2 ^ 64 →
          ∃ literal', source'.at? position = some (.number literal') ∧ literal'.value = i := by
  constructor
  · rcases exists_spells_of_readText (Document.ofText_eq_ok_iff.1 hread).1 with ⟨source, hsource, -⟩
    exact ⟨source, hsource⟩
  · intro source hsource
    rcases exists_printed set hread hsource with ⟨source', hsource', hnumbers⟩
    refine ⟨source', hsource', fun position literal i hat hinteger hlow hhigh => ?_⟩
    rcases hnumbers position literal hat with ⟨n, literal', hnumber, hwrites, hat'⟩
    rcases number?_of_integer? hinteger ⟨hlow, hhigh⟩ with ⟨n', hnumber', hdenotes⟩
    rw [hnumber, Option.some.injEq] at hnumber'
    subst hnumber'
    exact ⟨literal', hat', hwrites.value i hdenotes⟩

theorem integers_kept_oddText :
    Document.ofText default Document.oddText = .ok Document.oddDocument ∧
      (∃ source, SpellsText source Document.oddText) ∧
      ∀ source, SpellsText source Document.oddText →
        ∃ source', SpellsText source' ((RuleSet.all {}).patch Document.oddDocument).1.toText ∧
          ∀ position literal i, source.at? position = some (.number literal) →
            literal.integer? = some i → -(2 ^ 63 : Int) ≤ i → i < 2 ^ 64 →
            ∃ literal', source'.at? position = some (.number literal') ∧ literal'.value = i :=
  ⟨Document.ofText_oddText, integers_kept (RuleSet.all {}) Document.ofText_oddText⟩

/-- A node beside a number that no rule looks at. -/
def besideNode (n : Number) (fields : Members) : Value :=
  .object [("n", .number n),
    ("nodes", .array [.object (("type", .string "n8n-nodes-base.postgres") :: fields)])]

theorem within_besideNode (n : Number) {fields : Members}
    (hfields : (Value.object (("type", .string "n8n-nodes-base.postgres") :: fields)).Within
      (· = n) 125) : (besideNode n fields).Within (· = n) maxDepth := by
  show (besideNode n fields).Within (· = n) (125 + 1 + 1)
  rw [besideNode, Value.within_object, List.forall_mem_cons, List.forall_mem_singleton]
  refine ⟨by simp [Members.keys], ?_, ?_⟩
  · rw [Value.within_number]
  · rw [Value.within_array, List.forall_mem_singleton]
    exact hfields

/-- A node without credentials beside an integer that is out of range by two. -/
def largeValue : Value := besideNode (.integer 18446744073709551617) []

/-- The value that is written for it. -/
def alteredValue : Value :=
  besideNode (.float (.ofBits 0x43F0000000000000)) [("credentials", Rule.credentials {})]

/-- The literal that is written for the integer. -/
def alteredLiteral : Literal where
  negative := false
  whole := .ofNat 1
  noLeadingZero := by decide
  decimals := some (.ofNat 8446744073709552)
  exponent := some ⟨'e', .inl rfl, some '+', by simp, .ofNat 19⟩

theorem spellsText_largeValue :
    SpellsText (Source.ofValue (fun _ => .ofInt 18446744073709551617) largeValue)
      (largeValue.pretty ++ "\n") := by
  refine spellsText_pretty ?_ (within_besideNode (.integer 18446744073709551617) ?_)
  · rintro n rfl
    exact text_ofInt _
  · simp [Value.Within, Members.keys]

theorem spellsText_alteredValue :
    SpellsText (Source.ofValue (fun _ => alteredLiteral) alteredValue)
      (alteredValue.pretty ++ "\n") := by
  refine spellsText_pretty ?_ (within_besideNode (.float (.ofBits 0x43F0000000000000)) ?_)
  · rintro n rfl
    show alteredLiteral.text = fractionText (.ofBits 0x43F0000000000000)
    decide +kernel
  · simp [Value.Within, Members.keys, Rule.credentials]

/-- An integer that is out of range is written back as another number. -/
theorem largeInteger_altered :
    SpellsText (Source.ofValue (fun _ => .ofInt 18446744073709551617) largeValue)
        (largeValue.pretty ++ "\n") ∧
      (Source.ofValue (fun _ => .ofInt 18446744073709551617) largeValue).at? [.member "n"] =
        some (.number (.ofInt 18446744073709551617)) ∧
      (Literal.ofInt 18446744073709551617).integer? = some 18446744073709551617 ∧
      ((Document.ofText default (largeValue.pretty ++ "\n")).toOption.map fun document =>
        ((RuleSet.all {}).patch document).1.toText) = some (alteredValue.pretty ++ "\n") ∧
      SpellsText (Source.ofValue (fun _ => alteredLiteral) alteredValue)
        (alteredValue.pretty ++ "\n") ∧
      (Source.ofValue (fun _ => alteredLiteral) alteredValue).at? [.member "n"] =
        some (.number alteredLiteral) ∧
      alteredLiteral.value ≠ 18446744073709551617 :=
  ⟨spellsText_largeValue, rfl, integer?_ofInt _, by decide +kernel, spellsText_alteredValue, rfl,
    by decide +kernel⟩

end WorkflowRepair.Workflow
