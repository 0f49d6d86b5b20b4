/-
  Tracewright.Proofs.Syscall.Catalog

  What is selected from a catalog depends on the calls that are selected and
  on nothing else: neither on the order in which calls were added nor on the
  other calls of the catalog.

    * `ofList_of_nodup`   — calls of different numbers make a catalog.
    * `addAll_of_mem`     — calls are added up to the first whose number is there.
    * `toList_eq_of_perm` — the order of adding does not show in the listing.
    * `select_eq_of_ascending` — the selection is the one list of the selected
                            calls that is in ascending order.
    * `select_eq_of_perm` — catalogs with the same selected calls.
    * `select_split`, `select_add` — where a selected call has its place.
-/
import Mathlib.Data.List.Induction
import Mathlib.Data.List.Nodup
import Tracewright.Syscall.Catalog

namespace Tracewright.Catalog

variable {c c' : Catalog} {d : Descriptor} {ds : List Descriptor} {mask : Mask}

/-! ## Adding -/

theorem add_of_not_mem (h : d.number ∉ c.entries.map Descriptor.number) :
    ∃ c', c.add d = .ok c' ∧ c'.entries = c.entries ++ [d] := by
  rw [add, dif_neg h]
  exact ⟨_, rfl, rfl⟩

theorem addAll_of_nodup
    (h : (c.entries.map Descriptor.number ++ ds.map Descriptor.number).Nodup) :
    ∃ c', c.addAll ds = .ok c' ∧ c'.entries = c.entries ++ ds := by
  induction ds generalizing c with
  | nil => exact ⟨c, rfl, (List.append_nil _).symm⟩
  | cons d ds ih =>
    have hnew : d.number ∉ c.entries.map Descriptor.number := by
      intro hmem
      exact (List.nodup_append.1 h).2.2 _ hmem _ List.mem_cons_self rfl
    obtain ⟨c', hadd, hentries⟩ := add_of_not_mem hnew
    -- the numbers stay apart when the first of the new calls joins the old ones
    have hrest : (c'.entries.map Descriptor.number ++ ds.map Descriptor.number).Nodup := by
      rw [hentries, List.map_append, List.append_assoc]
      exact h
    obtain ⟨c'', haddAll, hentries'⟩ := ih hrest
    refine ⟨c'', ?_, ?_⟩
    · rw [addAll, List.foldlM_cons, hadd]
      exact haddAll
    · rw [hentries', hentries, List.append_assoc]
      rfl

/-- Calls of different numbers make a catalog, and it has these calls. -/
theorem ofList_of_nodup (h : (ds.map Descriptor.number).Nodup) :
    ∃ c, ofList ds = .ok c ∧ c.entries = ds :=
  addAll_of_nodup (c := empty) h

theorem addAll_append (c : Catalog) (ds ds' : List Descriptor) :
    c.addAll (ds ++ ds') = c.addAll ds >>= fun c' => c'.addAll ds' :=
  List.foldlM_append ..

/-- Calls are added up to the first one whose number is there already. -/
theorem addAll_of_mem {before after : List Descriptor}
    (hbefore : (c.entries.map Descriptor.number ++ before.map Descriptor.number).Nodup)
    (hd : d.number ∈ c.entries.map Descriptor.number ++ before.map Descriptor.number) :
    c.addAll (before ++ d :: after) = .error (.duplicateNumber d.number) := by
  obtain ⟨c', haddAll, hentries⟩ := addAll_of_nodup hbefore
  have hrefused : c'.add d = .error (.duplicateNumber d.number) := by
    rw [add, dif_pos (by rwa [hentries, List.map_append])]
  rw [addAll_append, haddAll]
  show c'.addAll (d :: after) = _
  rw [addAll, List.foldlM_cons, hrefused]
  rfl

/-- Calls of which some have the same number have a first one whose number was there before. -/
theorem exists_first_again (h : ¬ (ds.map Descriptor.number).Nodup) :
    ∃ before d after, ds = before ++ d :: after ∧ (before.map Descriptor.number).Nodup ∧
      d.number ∈ before.map Descriptor.number := by
  induction ds using List.reverseRecOn with
  | nil => exact absurd List.nodup_nil h
  | append_singleton ds d ih =>
    by_cases hds : (ds.map Descriptor.number).Nodup
    · refine ⟨ds, d, [], rfl, hds, ?_⟩
      by_contra hd
      rw [List.map_append, List.map_singleton, ← List.concat_eq_append] at h
      exact h (hds.concat hd)
    · obtain ⟨before, e, after, rfl, hbefore⟩ := ih hds
      exact ⟨before, e, after ++ [d], List.append_assoc .., hbefore⟩

/-! ## Listing -/

/-- Calls have one list in ascending order. -/
theorem eq_of_perm_of_ascending {ds ds' : List Descriptor} (hperm : ds.Perm ds')
    (h : ds.Pairwise (·.number < ·.number)) (h' : ds'.Pairwise (·.number < ·.number)) :
    ds = ds' := by
  have hanti : ∀ a b : Descriptor, a ∈ ds → b ∈ ds' →
      a.number < b.number → b.number < a.number → a = b := by
    intro a b _ _ hab hba
    exact absurd hba (Int.lt_asymm hab)
  exact List.Perm.eq_of_pairwise hanti h h' hperm

/-- Catalogs of the same calls list them alike, in whatever order they were added. -/
theorem toList_eq_of_perm (h : c.entries.Perm c'.entries) : c.toList = c'.toList :=
  eq_of_perm_of_ascending (c.toList_perm.trans (h.trans c'.toList_perm.symm)) c.toList_ascending
    c'.toList_ascending

/-! ## Selections -/

theorem select_perm (c : Catalog) (mask : Mask) :
    (c.select mask).Perm (c.entries.filter (·.isSelected mask)) :=
  c.toList_perm.filter _

/-- The selected calls have one list in ascending order. -/
theorem select_eq_of_ascending (hperm : ds.Perm (c.entries.filter (·.isSelected mask)))
    (h : ds.Pairwise (·.number < ·.number)) : c.select mask = ds :=
  eq_of_perm_of_ascending ((c.select_perm mask).trans hperm.symm) (c.toList_ascending.filter _) h

/-- Catalogs with the same selected calls, however they are ordered, have one selection. -/
theorem select_eq_of_perm
    (h : (c.entries.filter (·.isSelected mask)).Perm (c'.entries.filter (·.isSelected mask))) :
    c.select mask = c'.select mask :=
  select_eq_of_ascending ((c'.select_perm mask).trans h.symm) (c'.toList_ascending.filter _)

/-- A call that is not selected changes nothing about a selection. -/
theorem select_add_of_not (h : c'.entries.Perm (d :: c.entries)) (hd : d.isSelected mask = false) :
    c'.select mask = c.select mask := by
  apply select_eq_of_perm
  have hfilter := h.filter (·.isSelected mask)
  rwa [List.filter_cons_of_neg (by rw [hd]; exact Bool.false_ne_true)] at hfilter

/-- The calls of smaller numbers stand before those of greater numbers. -/
theorem select_split {n : Int} (hn : ∀ d ∈ c.select mask, d.number ≠ n) :
    c.select mask =
      (c.select mask).filter (·.number < n) ++ (c.select mask).filter (n < ·.number) := by
  -- no call has this number, so the greater ones are those that are not smaller
  have hgreater : (c.select mask).filter (n < ·.number) =
      (c.select mask).filter fun d => !decide (d.number < n) := by
    refine List.filter_congr fun d hd => ?_
    have := hn d hd
    rw [← decide_not, decide_eq_decide]
    omega
  have hascending : (c.select mask).Pairwise (·.number < ·.number) := c.toList_ascending.filter _
  apply select_eq_of_ascending
  · rw [hgreater]
    exact (List.filter_append_perm _ _).trans (c.select_perm mask)
  · rw [List.pairwise_append]
    refine ⟨hascending.filter _, hascending.filter _, fun a ha b hb => ?_⟩
    have ha : a.number < n := by simpa using (List.mem_filter.1 ha).2
    have hb : n < b.number := by simpa using (List.mem_filter.1 hb).2
    exact Int.lt_trans ha hb

theorem number_ne_of_new (h : c'.entries.Perm (d :: c.entries)) (mask : Mask) :
    ∀ e ∈ c.select mask, e.number ≠ d.number := by
  intro e he heq
  have hnodup := (h.map Descriptor.number).nodup_iff.1 c'.nodup_numbers
  rw [List.map_cons, List.nodup_cons] at hnodup
  have hmem : e ∈ c.entries := (List.mem_filter.1 ((c.select_perm mask).mem_iff.1 he)).1
  exact hnodup.1 (heq ▸ List.mem_map_of_mem hmem)

/-- A call that is selected stands after those of smaller numbers and before those of greater
    ones. -/
theorem select_add (h : c'.entries.Perm (d :: c.entries)) (hd : d.isSelected mask = true) :
    c'.select mask = (c.select mask).filter (·.number < d.number) ++
      d :: (c.select mask).filter (d.number < ·.number) := by
  have hsplit := select_split (number_ne_of_new h mask)
  have hascending : (c.select mask).Pairwise (·.number < ·.number) := c.toList_ascending.filter _
  rw [hsplit, List.pairwise_append] at hascending
  obtain ⟨hlow, hhigh, hacross⟩ := hascending
  have hsmaller : ∀ a ∈ (c.select mask).filter (·.number < d.number), a.number < d.number :=
    fun a ha => by simpa using (List.mem_filter.1 ha).2
  have hgreater : ∀ b ∈ (c.select mask).filter (d.number < ·.number), d.number < b.number :=
    fun b hb => by simpa using (List.mem_filter.1 hb).2
  apply select_eq_of_ascending
  · have hfilter := h.filter fun e => e.isSelected mask
    rw [List.filter_cons_of_pos (by exact hd)] at hfilter
    refine List.perm_middle.trans (List.Perm.trans ?_ hfilter.symm)
    rw [← hsplit]
    exact (c.select_perm mask).cons d
  · rw [List.pairwise_append, List.pairwise_cons]
    refine ⟨hlow, ⟨hgreater, hhigh⟩, fun a ha b hb => ?_⟩
    rcases List.mem_cons.1 hb with rfl | hb
    · exact hsmaller a ha
    · exact hacross a ha b hb

end Tracewright.Catalog
