/-
  Tracewright.Proofs.Settings.Closed

  What every change of a memory keeps, whether it succeeds or fails half-way:
  each reference leads to an object that is there, objects stay where they are,
  and a mapping stays a mapping.

    * `Memory.IsGrown`       — what a change keeps.
    * `isGrown_mergeInto`, `isGrown_assignAt`
                             — the changes of settings keep it.
    * `Settings.IsClosed`    — settings in which every reference leads somewhere.
-/
import Tracewright.Proofs.Settings.Overlay
import Tracewright.Proofs.Settings.Walk

namespace Tracewright

namespace Memory

variable {m m' : Memory} {b l r n : Nat} {i v x : Item} {k : Scalar} {entries : Mapping Item}

/-- What a change keeps. -/
structure IsGrown (m m' : Memory) : Prop where
  closed : m'.IsClosed
  length_le : m.objects.length ≤ m'.objects.length
  mapping : ∀ i, (m.mapping? i).isSome = true → (m'.mapping? i).isSome = true

theorem IsClosed.isGrown (h : m.IsClosed) : IsGrown m m := ⟨h, Nat.le_refl _, fun _ hi => hi⟩

theorem IsGrown.trans {m'' : Memory} (h : IsGrown m m') (h' : IsGrown m' m'') : IsGrown m m'' where
  closed := h'.closed
  length_le := Nat.le_trans h.length_le h'.length_le
  mapping i hi := h'.mapping i (h.mapping i hi)

theorem isBelow_mono {n' : Nat} (h : i.IsBelow n) (hn : n ≤ n') : i.IsBelow n' := by
  cases i with
  | scalar s => trivial
  | ref r => exact Nat.lt_of_lt_of_le h hn

/-! ## One change -/

theorem isBelow_of_mem_put (hentries : ∀ e ∈ entries, e.2.IsBelow n) (hi : i.IsBelow n)
    (k : Scalar) : ∀ e ∈ entries.put k i, e.2.IsBelow n := by
  induction entries with
  | nil =>
    intro e he
    rw [List.mem_singleton.1 he]
    exact hi
  | cons e entries ih =>
    obtain ⟨k', j⟩ := e
    obtain ⟨hfirst, hrest⟩ := List.forall_mem_cons.1 hentries
    rw [Mapping.put]
    split_ifs
    · exact List.forall_mem_cons.2 ⟨hi, hrest⟩
    · exact List.forall_mem_cons.2 ⟨hfirst, ih hrest⟩

theorem IsClosed.isBelow_of_mem (hm : m.IsClosed) (hr : m.mapping? i = some entries) :
    ∀ e ∈ entries, e.2.IsBelow m.objects.length := by
  obtain ⟨r, -, ho⟩ := mapping?_eq_some_iff.1 hr
  exact fun e he => hm _ (List.mem_of_getElem? ho) e.2 (List.mem_map_of_mem (f := Prod.snd) he)

theorem IsClosed.isGrown_putAt (hm : m.IsClosed) (hi : i.IsBelow m.objects.length) (r : Nat)
    (k : Scalar) : IsGrown m (m.putAt r k i) where
  closed := by
    cases hr : m.mapping? (.ref r) with
    | none =>
      rw [putAt, hr]
      exact hm
    | some entries =>
      intro o ho
      rw [length_putAt]
      rw [putAt_of_mapping? hr] at ho
      rcases List.mem_or_eq_of_mem_set ho with hold | rfl
      · exact hm o hold
      · intro j hj
        obtain ⟨e, he, rfl⟩ := List.mem_map.1 hj
        exact isBelow_of_mem_put (hm.isBelow_of_mem hr) hi k e he
  length_le := Nat.le_of_eq (length_putAt m r k i).symm
  mapping j hj := by
    rwa [isSome_mapping?_putAt]

theorem IsClosed.isGrown_make (hm : m.IsClosed) : IsGrown m (m.make (.map [])) where
  closed o ho i hi := by
    rw [length_make]
    rcases List.mem_append.1 ho with hold | hnew
    · exact isBelow_mono (hm o hold i hi) (Nat.le_succ _)
    · rw [List.mem_singleton.1 hnew] at hi
      cases hi
  length_le := by
    rw [length_make]
    exact Nat.le_succ _
  mapping i hi := by
    obtain ⟨entries, hentries⟩ := Option.isSome_iff_exists.1 hi
    obtain ⟨r, rfl, ho⟩ := mapping?_eq_some_iff.1 hentries
    rwa [mapping?_congr (object?_make_of_lt (lt_length_of_object? ho) _)]

/-- A document is taken up. -/
theorem IsClosed.isGrown_append (hm : m.IsClosed) (d : Document) :
    IsGrown m (m.append d.objects) where
  closed o ho i hi := by
    have hlength : (m.append d.objects).objects.length = m.objects.length + d.objects.length := by
      rw [append, List.length_append, List.length_map]
    rw [hlength]
    rcases List.mem_append.1 ho with hold | hnew
    · exact isBelow_mono (hm o hold i hi) (Nat.le_add_right _ _)
    · obtain ⟨o', ho', rfl⟩ := List.mem_map.1 hnew
      rw [items_shift] at hi
      obtain ⟨j, hj, rfl⟩ := List.mem_map.1 hi
      have hbelow := d.closed o' ho' j hj
      cases j with
      | scalar s => trivial
      | ref r =>
        show r + m.objects.length < m.objects.length + d.objects.length
        have hlt : r < d.objects.length := hbelow
        omega
  length_le := by
    rw [append, List.length_append]
    exact Nat.le_add_right _ _
  mapping i hi := by
    obtain ⟨entries, hentries⟩ := Option.isSome_iff_exists.1 hi
    obtain ⟨r, rfl, ho⟩ := mapping?_eq_some_iff.1 hentries
    rwa [mapping?_congr (object?_append_of_lt (lt_length_of_object? ho) _)]

/-! ## Changes one after the other -/

theorem isGrown_bind {α β : Type} {x : Action Memory α} {f : α → Action Memory β}
    (hx : IsGrown m (x m).2)
    (hf : ∀ a, (x m).1.result = .ok a → IsGrown (x m).2 (f a (x m).2).2) :
    IsGrown m ((x >>= f) m).2 := by
  cases hresult : (x m).1.result with
  | error e =>
    rw [Action.bind_of_error hresult]
    exact hx
  | ok a =>
    rw [Action.bind_of_ok hresult]
    exact hx.trans (hf a hresult)

/-! ## Merging -/

theorem checkSize_snd (r size : Nat) (m : Memory) : (checkSize r size m).2 = m := by
  rw [checkSize]
  split_ifs <;> rfl

/-- Going through a mapping keeps what each step keeps. -/
theorem isGrown_goThrough {step : Scalar → Item → Action Memory Unit}
    (hstep : ∀ {m : Memory} k v, m.IsClosed → v.IsBelow m.objects.length →
      IsGrown m (step k v m).2)
    (hm : m.IsClosed) (r size : Nat) (places : List Nat) :
    IsGrown m (goThrough r size step places m).2 := by
  -- the sizes are only looked at; a place that is gone leaves the memory as it is
  induction places generalizing m with
  | nil =>
    rw [goThrough, checkSize_snd]
    exact hm.isGrown
  | cons place places ih =>
    rw [goThrough]
    refine isGrown_bind ?_ fun _ _ => ?_
    · rw [checkSize_snd]
      exact hm.isGrown
    rw [checkSize_snd]
    rw [Action.bind_of_pure (x := Action.look _) (s := m) (t := m) rfl]
    cases hentry : (m.entriesAt r)[place]? with
    | none => exact ih hm
    | some e =>
      obtain ⟨k, v⟩ := e
      have hv : v.IsBelow m.objects.length := by
        have hmem := List.mem_of_getElem? hentry
        rw [entriesAt] at hmem
        cases hr : m.mapping? (.ref r) with
        | none => rw [hr] at hmem; cases hmem
        | some entries =>
          rw [hr, Option.getD_some] at hmem
          exact hm.isBelow_of_mem hr (k, v) hmem
      exact isGrown_bind (hstep k v hm hv) fun _ _ => ih (hstep k v hm hv).closed

theorem isGrown_mergeInto (hm : m.IsClosed) (depth b l : Nat) :
    IsGrown m (mergeInto depth b l m).2 := by
  induction depth generalizing m b l with
  | zero => exact hm.isGrown
  | succ depth ih =>
    refine isGrown_goThrough (fun {m} k v hm hv => ?_) hm l _ _
    unfold mergeEntry
    split
    · split_ifs
      · exact ih hm _ _
      · exact hm.isGrown_putAt hv b k
    · exact hm.isGrown_putAt hv b k

/-! ## Walking -/

theorem isGrown_enter (hm : m.IsClosed) (i : Item) (k : Text) :
    IsGrown m (enter i k m).2 := by
  cases hi : m.mapping? i with
  | none =>
    rw [enter_of_not_mapping hi]
    exact hm.isGrown
  | some entries =>
    obtain ⟨r, rfl, -⟩ := mapping?_eq_some_iff.1 hi
    cases hk : entries.getText? k with
    | some j =>
      rw [enter_of_some hi hk]
      exact hm.isGrown
    | none =>
      have hmade := hm.isGrown_make
      rw [enter_of_none hi hk]
      refine hmade.trans (hmade.closed.isGrown_putAt ?_ r (.text k))
      show m.objects.length < (m.make (.map [])).objects.length
      rw [length_make]
      exact Nat.lt_succ_self _

theorem isGrown_assignAt (hm : m.IsClosed) (hx : x.IsBelow m.objects.length) (i : Item)
    (names : List Text) : IsGrown m (assignAt x i names m).2 := by
  induction names generalizing m i with
  | nil => exact hm.isGrown
  | cons k ks ih =>
    by_cases hks : ks = []
    · subst hks
      show IsGrown m (putUnder i k x m).2
      cases hi : m.mapping? i with
      | none =>
        rw [putUnder_of_none hi]
        exact hm.isGrown
      | some entries =>
        obtain ⟨r, rfl, -⟩ := mapping?_eq_some_iff.1 hi
        rw [putUnder_of_mapping? hi]
        exact hm.isGrown_putAt hx r (.text k)
    · rw [assignAt_cons x i k hks]
      have henter := isGrown_enter hm i k
      exact isGrown_bind henter fun j _ =>
        ih henter.closed (isBelow_mono hx henter.length_le) j

end Memory

namespace Settings

variable {s : Settings}

/-- Settings are a mapping, and every reference leads to an object. -/
structure IsClosed (s : Settings) : Prop where
  memory : s.memory.IsClosed
  root : (s.memory.mapping? (.ref s.root)).isSome = true

theorem IsClosed.root_isBelow (h : s.IsClosed) :
    (Item.ref s.root).IsBelow s.memory.objects.length := by
  obtain ⟨entries, hentries⟩ := Option.isSome_iff_exists.1 h.root
  exact Memory.lt_length_of_object? (Memory.mapping?_ref_eq_some_iff.1 hentries)

/-- The first settings of a program. -/
theorem isClosed_usual (depths : Depths) : (usual depths).IsClosed where
  memory := by
    show ∀ o ∈ usualObjects ++ usualObjects.map (Object.shift 5), ∀ i ∈ o.items, i.IsBelow 10
    decide
  root := rfl

theorem IsClosed.of_isGrown {m' : Memory} (h : s.IsClosed) (hm' : s.memory.IsGrown m') :
    IsClosed { s with memory := m' } where
  memory := hm'.closed
  root := hm'.mapping _ h.root

theorem IsClosed.assign {x : Item} (h : s.IsClosed) (hx : x.IsBelow s.memory.objects.length)
    (key : Text) : (assign key x s).2.IsClosed :=
  h.of_isGrown (Memory.isGrown_assignAt h.memory hx _ _)

end Settings

end Tracewright
