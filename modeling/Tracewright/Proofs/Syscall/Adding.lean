/-
  Tracewright.Proofs.Syscall.Adding

  System calls added one after the other, the refused ones left out.  The
  catalog holds the first call of each number, in the order of their adding,
  and everything that can be asked of it answers for these calls.

    * `held`              — the catalog after a run of calls have been added.
    * `firsts`, `entries_held` — which calls it holds, and in what order.
    * `byName?_held_eq_some_iff` — the call of a name that was added first.
    * `Shows`             — what can be seen of the catalog.
    * `adds_settled`      — the catalog after any run, and one more call.
    * `add_overlong`      — a refusal that is not said to be one.
-/
import Mathlib.Data.List.Induction
import Tracewright.Proofs.Run
import Tracewright.Proofs.Syscall.Filter

namespace Tracewright.Catalog

variable {c : Catalog} {d : Descriptor} {ds : List Descriptor} {n : Int} {name : Text}

/-! ## Adding in place -/

/-- Adds a call to a catalog; a refused one leaves it as it is. -/
def addInPlace (d : Descriptor) : Action Catalog Unit := fun c =>
  match c.add d with
  | .ok c' => (pure (), c')
  | .error fault => (Run.fail (.config fault), c)

/-- The catalog after calls have been added to an empty one. -/
def held (ds : List Descriptor) : Catalog := ds.foldl (fun c d => (addInPlace d c).2) empty

theorem held_concat (ds : List Descriptor) (d : Descriptor) :
    held (ds ++ [d]) = (addInPlace d (held ds)).2 := List.foldl_concat ..

theorem addInPlace_of_mem (h : d.number ∈ c.entries.map Descriptor.number) :
    addInPlace d c = (Run.fail (.config (.duplicateNumber d.number)), c) := by
  rw [addInPlace, add, dif_pos h]

theorem addInPlace_of_not_mem (h : d.number ∉ c.entries.map Descriptor.number) :
    (addInPlace d c).1 = pure () ∧ (addInPlace d c).2.entries = c.entries ++ [d] := by
  obtain ⟨c', hadd, hentries⟩ := add_of_not_mem h
  rw [addInPlace, hadd]
  exact ⟨rfl, hentries⟩

/-! ## The calls that are held -/

/-- The calls of a list that come first with their numbers, in their order. -/
def firsts : List Descriptor → List Descriptor
  | [] => []
  | d :: ds => d :: (firsts ds).filter (·.number ≠ d.number)

/-- A call is the first one with its number if none of those before it has that number. -/
def IsFirst (d : Descriptor) (before : List Descriptor) : Prop := ∀ e ∈ before, e.number ≠ d.number

theorem mem_firsts_iff :
    d ∈ firsts ds ↔ ∃ before after, ds = before ++ d :: after ∧ IsFirst d before := by
  induction ds with
  | nil =>
    refine ⟨nofun, ?_⟩
    rintro ⟨before, after, h, -⟩
    cases before <;> cases h
  | cons e ds ih =>
    rw [firsts, List.mem_cons, List.mem_filter, ih, decide_eq_true_eq]
    constructor
    · rintro (rfl | ⟨⟨before, after, rfl, hfirst⟩, hne⟩)
      · exact ⟨[], ds, rfl, nofun⟩
      · exact ⟨e :: before, after, rfl, List.forall_mem_cons.2 ⟨hne.symm, hfirst⟩⟩
    · rintro ⟨before, after, h, hfirst⟩
      cases before with
      | nil =>
        cases h
        exact .inl rfl
      | cons e' before =>
        cases h
        obtain ⟨hne, hfirst⟩ := List.forall_mem_cons.1 hfirst
        exact .inr ⟨⟨before, after, rfl, hfirst⟩, hne.symm⟩

/-- A number is among those of the first calls if any call has it. -/
theorem mem_map_firsts_iff :
    n ∈ (firsts ds).map Descriptor.number ↔ n ∈ ds.map Descriptor.number := by
  induction ds with
  | nil => exact Iff.rfl
  | cons e ds ih =>
    rw [firsts, List.map_cons, List.map_cons, List.mem_cons, List.mem_cons, ← ih]
    by_cases hn : n = e.number
    · exact ⟨fun _ => .inl hn, fun _ => .inl hn⟩
    · refine or_congr_right ?_
      simp only [List.mem_map, List.mem_filter, decide_eq_true_eq]
      constructor
      · rintro ⟨d, ⟨hd, -⟩, hnumber⟩
        exact ⟨d, hd, hnumber⟩
      · rintro ⟨d, hd, rfl⟩
        exact ⟨d, ⟨hd, hn⟩, rfl⟩

/-- One more call is one more first call, or it is none. -/
theorem firsts_concat (ds : List Descriptor) (d : Descriptor) :
    firsts (ds ++ [d]) =
      if d.number ∈ ds.map Descriptor.number then firsts ds else firsts ds ++ [d] := by
  induction ds with
  | nil => rfl
  | cons e ds ih =>
    rw [List.cons_append, firsts, ih, firsts, List.map_cons]
    by_cases hds : d.number ∈ ds.map Descriptor.number
    · rw [if_pos hds, if_pos (List.mem_cons_of_mem _ hds)]
    · rw [if_neg hds, List.filter_append]
      by_cases he : d.number = e.number
      · rw [if_pos (List.mem_cons.2 (.inl he)),
          List.filter_cons_of_neg (by rw [decide_eq_true_eq]; exact not_not_intro he),
          List.filter_nil, List.append_nil]
      · rw [if_neg (by rw [List.mem_cons]; exact not_or_intro he hds),
          List.filter_cons_of_pos (by rw [decide_eq_true_eq]; exact he)]
        rfl

/-- The catalog holds the first call of each number, in the order of their adding. -/
theorem entries_held (ds : List Descriptor) : (held ds).entries = firsts ds := by
  induction ds using List.reverseRecOn with
  | nil => rfl
  | append_singleton ds d ih =>
    have hnumber : d.number ∈ ds.map Descriptor.number ↔
        d.number ∈ (held ds).entries.map Descriptor.number := by
      rw [ih, mem_map_firsts_iff]
    rw [held_concat, firsts_concat]
    simp only [hnumber, ← ih]
    split_ifs with h
    · rw [addInPlace_of_mem h]
    · exact (addInPlace_of_not_mem h).2

theorem mem_held_iff :
    d ∈ (held ds).entries ↔ ∃ before after, ds = before ++ d :: after ∧ IsFirst d before := by
  rw [entries_held, mem_firsts_iff]

theorem mem_map_held_iff :
    n ∈ (held ds).entries.map Descriptor.number ↔ n ∈ ds.map Descriptor.number := by
  rw [entries_held, mem_map_firsts_iff]

/-- What is held stays, and stays in its place, when more calls are added. -/
theorem entries_held_append (ds more : List Descriptor) :
    (held ds).entries <+: (held (ds ++ more)).entries := by
  induction more using List.reverseRecOn with
  | nil => simp only [List.append_nil, List.prefix_refl]
  | append_singleton more d ih =>
    rw [← List.append_assoc, held_concat]
    by_cases hd : d.number ∈ (held (ds ++ more)).entries.map Descriptor.number
    · rw [addInPlace_of_mem hd]
      exact ih
    · rw [(addInPlace_of_not_mem hd).2]
      exact ih.trans (List.prefix_append _ _)

/-! ## Looking up -/

theorem contains_iff : c.contains n = true ↔ ∃ d ∈ c.toList, d.number = n := by
  rw [contains, List.any_eq_true]
  simp only [mem_toList, beq_iff_eq]

theorem contains_iff_mem : c.contains n = true ↔ n ∈ c.entries.map Descriptor.number := by
  rw [contains_iff, List.mem_map]
  simp only [mem_toList]

/-- A number finds the one call that has it. -/
theorem get?_eq_some_iff : c.get? n = some d ↔ d ∈ c.toList ∧ d.number = n := by
  rw [mem_toList, get?]
  constructor
  · intro h
    exact ⟨List.mem_of_find?_eq_some h, by simpa using List.find?_some h⟩
  · rintro ⟨hd, rfl⟩
    cases hfind : c.entries.find? (·.number == d.number) with
    | none =>
      rw [List.find?_eq_none] at hfind
      exact absurd (beq_self_eq_true d.number) (hfind d hd)
    | some e =>
      have hnumber : e.number = d.number := by simpa using List.find?_some hfind
      rw [List.inj_on_of_nodup_map c.nodup_numbers (List.mem_of_find?_eq_some hfind) hd hnumber]

theorem get?_eq_none_iff : c.get? n = none ↔ c.contains n = false := by
  rw [get?, contains, List.find?_eq_none, List.any_eq_false]

theorem byName?_eq_none_iff : c.byName? name = none ↔ ∀ d ∈ c.entries, d.name ≠ name := by
  rw [byName?, List.find?_eq_none]
  simp only [beq_iff_eq]

theorem byName?_append_of_some (more : List Descriptor) (h : (held ds).byName? name = some d) :
    (held (ds ++ more)).byName? name = some d :=
  (entries_held_append ds more).find?_eq_some h

/-- A name finds the call that was taken when no call that was held had the name. -/
theorem byName?_held_eq_some_iff : (held ds).byName? name = some d ↔ d.name = name ∧
    ∃ before after, ds = before ++ d :: after ∧ IsFirst d before ∧
      ∀ e ∈ (held before).entries, e.name ≠ name := by
  constructor
  · intro h
    have hname : d.name = name := by simpa using List.find?_some h
    obtain ⟨before, after, rfl, hfirst⟩ := mem_held_iff.1 (List.mem_of_find?_eq_some h)
    refine ⟨hname, before, after, rfl, hfirst, byName?_eq_none_iff.1 ?_⟩
    cases hbefore : (held before).byName? name with
    | none => rfl
    | some e =>
      -- a call with the name would still be found, but what is found was not held yet
      have he := byName?_append_of_some (d :: after) hbefore
      rw [h, Option.some.injEq] at he
      have hmem : d ∈ (held before).entries := he ▸ List.mem_of_find?_eq_some hbefore
      obtain ⟨_, _, rfl, -⟩ := mem_held_iff.1 hmem
      exact absurd rfl (hfirst d (List.mem_append_right _ List.mem_cons_self))
  · rintro ⟨hname, before, after, rfl, hfirst, hbefore⟩
    have hnew : d.number ∉ (held before).entries.map Descriptor.number := by
      rw [mem_map_held_iff, List.mem_map]
      rintro ⟨e, he, hnumber⟩
      exact hfirst e he hnumber
    have htaken : (held (before ++ [d])).byName? name = some d := by
      have hnone : (held before).entries.find? (·.name == name) = none :=
        byName?_eq_none_iff.2 hbefore
      have hd : [d].find? (·.name == name) = some d :=
        List.find?_cons_of_pos (beq_iff_eq.2 hname)
      rw [byName?, held_concat, (addInPlace_of_not_mem hnew).2, List.find?_append, hnone, hd]
      rfl
    have hrun : before ++ d :: after = (before ++ [d]) ++ after := by
      rw [List.append_assoc, List.singleton_append]
    rw [hrun]
    exact byName?_append_of_some after htaken

/-! ## One more call -/

/-- A call whose number is there is refused, and the catalog stays as it is. -/
theorem addInPlace_of_contains (h : c.contains d.number = true) :
    (addInPlace d c).2 = c ∧
      (addInPlace d c).1.result = .error (if Numeral.isWritable d.number = true
        then .config (.duplicateNumber d.number) else .value .overlongNumeral) := by
  rw [addInPlace_of_mem (contains_iff_mem.1 h)]
  exact ⟨rfl, congrArg Except.error (Failure.told_of_obstacle?_eq rfl)⟩

theorem result_addInPlace_of_not_contains (h : c.contains d.number = false) :
    (addInPlace d c).1.result = .ok () := by
  have hnew : d.number ∉ c.entries.map Descriptor.number :=
    mt contains_iff_mem.2 (Bool.eq_false_iff.1 h)
  rw [(addInPlace_of_not_mem hnew).1]
  rfl

/-- A refusal is said to be one if the number is there, and can be written. -/
theorem result_addInPlace_eq_iff :
    (addInPlace d c).1.result = .error (.config (.duplicateNumber d.number)) ↔
      c.contains d.number = true ∧ Numeral.isWritable d.number = true := by
  cases h : c.contains d.number with
  | true =>
    rw [(addInPlace_of_contains h).2]
    cases Numeral.isWritable d.number <;> simp
  | false =>
    rw [result_addInPlace_of_not_contains h]
    simp

/-! ## Runs of calls -/

/-- What can be seen of a catalog after a run of calls have been added. -/
structure Shows (ds : List Descriptor) (c : Catalog) : Prop where
  /-- It holds the first call of each number, ... -/
  mem_entries_iff : ∀ d, d ∈ c.entries ↔
    ∃ before after, ds = before ++ d :: after ∧ IsFirst d before
  /-- ... each once. -/
  entries_eq : c.entries = firsts ds
  perm : c.toList.Perm c.entries
  ascending : c.toList.Pairwise (·.number < ·.number)
  size_eq : c.size = c.toList.length
  contains_iff : ∀ n, c.contains n = true ↔ ∃ d ∈ c.toList, d.number = n
  get?_eq_some_iff : ∀ n d, c.get? n = some d ↔ d ∈ c.toList ∧ d.number = n
  get?_eq_none_iff : ∀ n, c.get? n = none ↔ c.contains n = false
  /-- A name finds the call that was taken when no call that was held had the name. -/
  byName?_eq_some_iff : ∀ name d, c.byName? name = some d ↔ d.name = name ∧
    ∃ before after, ds = before ++ d :: after ∧ IsFirst d before ∧
      ∀ e ∈ (held before).entries, e.name ≠ name
  byName?_eq_none_iff : ∀ name, c.byName? name = none ↔ ∀ d ∈ c.entries, d.name ≠ name
  select_sublist : ∀ mask, (c.select mask).Sublist c.toList
  mem_select_iff : ∀ mask d, d ∈ c.select mask ↔ d ∈ c.toList ∧ d.available = true ∧
    (mask = 0 ∨ ∃ i, Int.testBit d.mask i = true ∧ Int.testBit mask i = true)

theorem shows_held (ds : List Descriptor) : Shows ds (held ds) where
  mem_entries_iff _ := mem_held_iff
  entries_eq := entries_held ds
  perm := toList_perm _
  ascending := toList_ascending _
  size_eq := (toList_perm _).length_eq.symm
  contains_iff _ := contains_iff
  get?_eq_some_iff _ _ := get?_eq_some_iff
  get?_eq_none_iff _ := get?_eq_none_iff
  byName?_eq_some_iff _ _ := byName?_held_eq_some_iff
  byName?_eq_none_iff _ := byName?_eq_none_iff
  select_sublist _ := List.filter_sublist
  mem_select_iff mask d := by
    rw [mem_select, Descriptor.fits_iff]
    simp only [Mask.bit_eq_testBit]

/-- After any run of calls the catalog holds the first call of each number, and all that can be
    asked of it agrees.  One more call is refused exactly if its number is there; the catalog stays
    as it is then, and the refusal is said to be one if the number can be written. -/
theorem adds_settled (ds : List Descriptor) (d : Descriptor) :
    Shows ds (held ds) ∧
    ((addInPlace d (held ds)).1.result = .error (.config (.duplicateNumber d.number)) ↔
      (held ds).contains d.number = true ∧ Numeral.isWritable d.number = true) ∧
    ((held ds).contains d.number = true → (addInPlace d (held ds)).2 = held ds ∧
      (addInPlace d (held ds)).1.result = .error (if Numeral.isWritable d.number = true
        then .config (.duplicateNumber d.number) else .value .overlongNumeral)) ∧
    ((held ds).contains d.number = false → (addInPlace d (held ds)).2 = held (ds ++ [d]) ∧
      (addInPlace d (held ds)).1.result = .ok ()) := by
  refine ⟨shows_held ds, result_addInPlace_eq_iff, addInPlace_of_contains, fun h => ?_⟩
  exact ⟨(held_concat ds d).symm, result_addInPlace_of_not_contains h⟩

/-- Calls of which the second has the number of the first, and the third its name. -/
def someCalls : List Descriptor :=
  [.ofMask 7 "poll" 0 true, .ofMask 7 "lstat" 1 true, .ofMask 2 "poll" 1 true]

/-- The second call is refused; the third one does not take the name from the first, although it
    is listed before it.  One more call of its number is refused, too. -/
theorem adds_settled_someCalls :
    (held someCalls).entries.map (·.number) = [7, 2] ∧
      (held someCalls).byName? "poll" = some (.ofMask 7 "poll" 0 true) ∧
      (addInPlace (.ofMask 2 "open" 1 true) (held someCalls)).2 = held someCalls ∧
      (addInPlace (.ofMask 2 "open" 1 true) (held someCalls)).1.result =
        .error (.config (.duplicateNumber 2)) := by
  obtain ⟨hshows, hrefused, hkept, -⟩ := adds_settled someCalls (.ofMask 2 "open" 1 true)
  have hthere : (held someCalls).contains 2 = true := by decide
  refine ⟨?_, ?_, (hkept hthere).1, hrefused.2 ⟨hthere, Numeral.isWritable_of_lt (by decide)⟩⟩
  · rw [hshows.entries_eq]
    decide
  · refine (hshows.byName?_eq_some_iff _ _).2 ⟨rfl, [], _, rfl, nofun, nofun⟩

/-- A call whose number is too long to be written. -/
def overlongCall (name : Text) : Descriptor := .ofMask (.ofNat (Nat.pow 16 3600)) name 0 true

/-- The number is there, but it cannot be told: the refusal is one of a numeral that is too long. -/
theorem add_overlong :
    (held [overlongCall "a"]).contains (overlongCall "b").number = true ∧
      (addInPlace (overlongCall "b") (held [overlongCall "a"])).1.result matches
        .error (.value .overlongNumeral) := by
  decide +kernel

end Tracewright.Catalog
