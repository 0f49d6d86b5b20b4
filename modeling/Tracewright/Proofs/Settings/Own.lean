/-
  Tracewright.Proofs.Settings.Own

  Settings of one's own, whatever else is in their memory: the mapping of the
  settings and the sections below it are nobody else's, so options that are put
  change these and nothing besides.

    * `openSection?`, `IsOpen`  — what stands in a section; a section takes options
                              if it is a mapping.
    * `IsOwn`               — settings of one's own, above a memory.
    * `IsOwn.of_section`, `IsOwn.of_root`
                            — a change below a section, and one above it.
    * `IsOwn.assign`        — what they hold after an option has been put.
    * `IsOwn.assignAll`     — and after all options that are given.
-/
import Mathlib.Data.List.Basic
import Tracewright.Proofs.Settings.Walk

namespace Tracewright

namespace Memory

variable {m m' : Memory} {b : Nat} {i : Item} {entries : Mapping Item}

/-- Nothing has changed but one mapping. -/
structure IsChanged (m m' : Memory) (b : Nat) (entries : Mapping Item) : Prop where
  depths_eq : m'.depths = m.depths
  mapping?_eq : m'.mapping? (.ref b) = some entries
  frame : ∀ q, q ≠ b → m'.object? q = m.object? q

theorem IsChanged.mapping?_of_ne (h : m.IsChanged m' b entries) (hi : i ≠ .ref b) :
    m'.mapping? i = m.mapping? i := by
  cases i with
  | scalar s => rfl
  | ref q => exact mapping?_congr (h.frame q fun hq => hi (hq ▸ rfl))

theorem isChanged_putAt (h : m.mapping? (.ref b) = some entries) (k : Scalar) (i : Item) :
    m.IsChanged (m.putAt b k i) b (entries.put k i) where
  depths_eq := depths_putAt _ _ _ _
  mapping?_eq := mapping?_putAt h k i
  frame _ hq := object?_putAt_of_ne hq m k i

end Memory

namespace Settings

variable {base m' : Memory} {s s' : Settings} {key top name : Text} {x : Item}
  {entries root : Mapping Item}

/-! ## Sections -/

/-- The names of the sections. -/
def sections : List Text := ["generator", "templates", "catalog", "output"]

/-- Where settings of one's own keep a section. -/
def cell (top : Text) : Nat := 6 + sections.idxOf top

theorem cell_inj {top other : Text} (htop : top ∈ sections) (h : cell top = cell other) :
    top = other :=
  (List.idxOf_inj htop).1 (Nat.add_left_cancel h)

theorem cell_bounds (htop : top ∈ sections) : 5 < cell top ∧ cell top < 10 := by
  have hlt : sections.idxOf top < 4 := List.idxOf_lt_length_iff.2 htop
  unfold cell
  omega

/-- What stands in a section, if it is a mapping. -/
def openSection? (s : Settings) (top : Text) : Option (Mapping Item) :=
  (s.memory.find? (.ref s.root) [top]).bind s.memory.mapping?

/-- A section takes options: it is a mapping, or it is not there yet. -/
def IsOpen (m : Memory) (i : Item) (top : Text) : Prop :=
  ∀ j ∈ m.find? i [top], (m.mapping? j).isSome = true

instance (m : Memory) (i : Item) (top : Text) : Decidable (IsOpen m i top) := by
  unfold IsOpen
  infer_instance

/-- A setting with two names stands in a section. -/
theorem item?_eq (hpath : path key = [top, name]) :
    s.item? key = (s.openSection? top).bind (Mapping.getText? · name) := by
  rw [item?, hpath, openSection?, Memory.find?, Memory.find?]
  cases (s.memory.mapping? (.ref s.root)).bind (·.getText? top) with
  | none => rfl
  | some i =>
    simp only [Memory.find?, Option.bind_some]
    cases (s.memory.mapping? i).bind (·.getText? name) <;> rfl

/-- Settings of one's own above a memory: a mapping, and the sections below it, unless there is
    something in the place of a section that is no mapping.  All other objects are as they were. -/
structure IsOwn (base : Memory) (s : Settings) : Prop where
  root_eq : s.root = 5
  depths_eq : s.memory.depths = base.depths
  frame : ∀ q, q < 5 ∨ 10 ≤ q → s.memory.object? q = base.object? q
  stands : ∃ root, s.memory.mapping? (.ref 5) = some root ∧ ∀ top ∈ sections,
    ∃ i, root.getText? top = some i ∧ ((s.memory.mapping? i).isSome = true → i = .ref (cell top))

theorem IsOwn.openSection?_eq (h : IsOwn base s) (hroot : s.memory.mapping? (.ref 5) = some root)
    (top : Text) : s.openSection? top = (root.getText? top).bind s.memory.mapping? := by
  rw [openSection?, h.root_eq, Memory.find?_cons hroot]
  cases root.getText? top <;> rfl

/-- An open section is at its own place. -/
theorem IsOwn.getText?_of_openSection? (h : IsOwn base s)
    (hroot : s.memory.mapping? (.ref 5) = some root) (htop : top ∈ sections)
    (hsection : s.openSection? top = some entries) :
    root.getText? top = some (.ref (cell top)) ∧
      s.memory.mapping? (.ref (cell top)) = some entries := by
  obtain ⟨root', hroot', hstands⟩ := h.stands
  obtain rfl := Option.some.inj (hroot.symm.trans hroot')
  obtain ⟨i, hi, hcell⟩ := hstands top htop
  rw [h.openSection?_eq hroot, hi, Option.bind_some] at hsection
  obtain rfl := hcell (by rw [hsection]; rfl)
  exact ⟨hi, hsection⟩

/-- A section changes, and the others stay. -/
theorem IsOwn.of_section (h : IsOwn base s) (htop : top ∈ sections)
    (hsection : (s.openSection? top).isSome = true)
    (hm' : s.memory.IsChanged m' (cell top) entries) :
    IsOwn base { s with memory := m' } ∧
      openSection? { s with memory := m' } top = some entries ∧
      ∀ other ∈ sections, other ≠ top →
        openSection? { s with memory := m' } other = s.openSection? other := by
  obtain ⟨root, hroot, hstands⟩ := h.stands
  obtain ⟨old, hold⟩ := Option.isSome_iff_exists.1 hsection
  obtain ⟨hget, hmapping⟩ := h.getText?_of_openSection? hroot htop hold
  have hbounds := cell_bounds htop
  have hroot' : m'.mapping? (.ref 5) = some root :=
    (hm'.mapping?_of_ne fun h => by have := Item.ref.inj h; omega).trans hroot
  -- no other section is at the place of this one
  have hapart : ∀ other ∈ sections, other ≠ top → ∀ i, root.getText? other = some i →
      i ≠ .ref (cell top) := by
    rintro other hother hne _ hi rfl
    obtain ⟨i, hi', hcell⟩ := hstands other hother
    obtain rfl := Option.some.inj (hi.symm.trans hi')
    have hcells := hcell (by rw [hmapping]; rfl)
    exact hne (cell_inj hother (Item.ref.inj hcells.symm))
  have hown : IsOwn base { s with memory := m' } := by
    refine ⟨h.root_eq, hm'.depths_eq.trans h.depths_eq, fun q hq => ?_, root, hroot',
      fun other hother => ?_⟩
    · exact (hm'.frame q (by omega)).trans (h.frame q hq)
    · obtain ⟨i, hi, hcell⟩ := hstands other hother
      refine ⟨i, hi, fun hsome => ?_⟩
      by_cases hne : other = top
      · subst hne
        exact Option.some.inj (hi.symm.trans hget)
      · exact hcell (hm'.mapping?_of_ne (hapart other hother hne i hi) ▸ hsome)
  refine ⟨hown, ?_, fun other hother hne => ?_⟩
  · rw [hown.openSection?_eq hroot', hget]
    exact hm'.mapping?_eq
  · rw [hown.openSection?_eq hroot', h.openSection?_eq hroot]
    obtain ⟨i, hi, -⟩ := hstands other hother
    rw [hi]
    exact hm'.mapping?_of_ne (hapart other hother hne i hi)

/-- Something is put under a key of the settings themselves, and no section gets a mapping by
    that. -/
theorem IsOwn.of_root (h : IsOwn base s) (hroot : s.memory.mapping? (.ref 5) = some root)
    {k : Scalar} (hk : ∀ top ∈ sections, k.same (.text top) = true → s.memory.mapping? x = none)
    (hm' : s.memory.IsChanged m' 5 (root.put k x)) :
    IsOwn base { s with memory := m' } ∧ ∀ top ∈ sections,
      openSection? { s with memory := m' } top =
        if k.same (.text top) = true then none else s.openSection? top := by
  obtain ⟨root', hroot', hstands⟩ := h.stands
  obtain rfl := Option.some.inj (hroot.symm.trans hroot')
  -- neither a section nor what is put in its place is the mapping of the settings
  have hthere (i : Item) (hi : s.memory.mapping? i = none) : m'.mapping? i = none := by
    rw [hm'.mapping?_of_ne, hi]
    rintro rfl
    rw [hroot] at hi
    cases hi
  have hcells : ∀ top ∈ sections, ∀ i, root.getText? top = some i →
      m'.mapping? i = s.memory.mapping? i := by
    intro top htop i hi
    obtain ⟨i', hi', hcell⟩ := hstands top htop
    obtain rfl := Option.some.inj (hi.symm.trans hi')
    refine hm'.mapping?_of_ne ?_
    rintro rfl
    have hfive := Item.ref.inj (hcell (by rw [hroot]; rfl))
    have := cell_bounds htop
    omega
  have hput (top : Text) : (root.put k x).getText? top =
      if k.same (.text top) = true then some x else root.getText? top :=
    Mapping.get?_put root k x (.text top)
  have hown : IsOwn base { s with memory := m' } := by
    refine ⟨h.root_eq, hm'.depths_eq.trans h.depths_eq, fun q hq => ?_, root.put k x,
      hm'.mapping?_eq, fun top htop => ?_⟩
    · exact (hm'.frame q (by omega)).trans (h.frame q hq)
    · rw [hput]
      split_ifs with hsame
      · refine ⟨x, rfl, fun hsome => ?_⟩
        rw [hthere x (hk top htop hsame)] at hsome
        cases hsome
      · obtain ⟨i, hi, hcell⟩ := hstands top htop
        refine ⟨i, hi, fun hsome => hcell ?_⟩
        rw [← hcells top htop i hi]
        exact hsome
  refine ⟨hown, fun top htop => ?_⟩
  rw [hown.openSection?_eq hm'.mapping?_eq, h.openSection?_eq hroot, hput]
  split_ifs with hsame
  · exact hthere x (hk top htop hsame)
  · obtain ⟨i, hi, -⟩ := hstands top htop
    rw [hi]
    exact hcells top htop i hi

/-! ## Options -/

/-- The name of a setting in a section. -/
def IsOption (key : Text) : Prop := ∃ top ∈ sections, ∃ name, path key = [top, name]

/-- The section that a name starts with. -/
def sectionOf (key : Text) : Text := (path key).headD []

/-- The options that are given. -/
def given (os : List (Text × Option Scalar)) : List (Text × Item) :=
  os.filterMap fun (key, v) => v.map fun v => (key, .scalar v)

/-- What an option leaves that has been put: its section has it, and nothing else is another. -/
structure HasPut (base : Memory) (s s' : Settings) (key : Text) (x : Item) : Prop where
  own : IsOwn base s'
  item?_eq : ∀ key', IsOption key' →
    s'.item? key' = if path key' = path key then some x else s.item? key'
  isSome_openSection? : ∀ top ∈ sections, (s'.openSection? top).isSome = (s.openSection? top).isSome

/-- An option is put into its section, or there is none to put it into. -/
theorem IsOwn.assign (h : IsOwn base s) (hkey : IsOption key) (x : Item) :
    (s.openSection? (sectionOf key) = none ∧ assign key x s = (Run.fail .wrongKind, s)) ∨
      ((s.openSection? (sectionOf key)).isSome = true ∧
        ∃ s', assign key x s = (pure (), s') ∧ HasPut base s s' key x) := by
  obtain ⟨top, htop, name, hpath⟩ := hkey
  have hsection : sectionOf key = top := by rw [sectionOf, hpath]; rfl
  obtain ⟨root, hroot, hstands⟩ := h.stands
  obtain ⟨i, hi, hcell⟩ := hstands top htop
  -- a name of an option has two parts, so the walk is one step into a section
  have hwalk : Memory.assignAt x (.ref s.root) (path key) s.memory =
      Memory.putUnder i name x s.memory := by
    rw [hpath, h.root_eq, Memory.assignAt_cons x _ top (List.cons_ne_nil _ _),
      Action.bind_of_pure (Memory.enter_of_some hroot hi)]
    rfl
  rw [hsection, Settings.assign, acting, hwalk, h.openSection?_eq hroot, hi, Option.bind_some]
  cases hmapping : s.memory.mapping? i with
  | none =>
    rw [Memory.putUnder_of_none hmapping]
    exact .inl ⟨rfl, rfl⟩
  | some entries =>
    have hopen : (s.openSection? top).isSome = true := by
      rw [h.openSection?_eq hroot, hi, Option.bind_some, hmapping]
      rfl
    obtain rfl := hcell (by rw [hmapping]; rfl)
    rw [Memory.putUnder_of_mapping? hmapping]
    obtain ⟨hown, hput, hothers⟩ :=
      h.of_section htop hopen (Memory.isChanged_putAt hmapping (.text name) x)
    refine .inr ⟨rfl, _, rfl, hown, fun key' hkey' => ?_, fun other hother => ?_⟩
    · obtain ⟨top', htop', name', hpath'⟩ := hkey'
      rw [item?_eq hpath', item?_eq hpath', hpath, hpath']
      by_cases hne : top' = top
      · subst hne
        have hold : s.openSection? top' = some entries := by
          rw [h.openSection?_eq hroot, hi]
          exact hmapping
        rw [hput, hold, Option.bind_some, Option.bind_some]
        by_cases hname : name' = name
        · subst hname
          rw [if_pos rfl, Mapping.getText?_put_same]
        · rw [if_neg (by simpa using hname), Mapping.getText?_put_other _ _ (Ne.symm hname)]
      · rw [hothers top' htop' hne, if_neg fun h => hne (List.cons.inj h).1]
    · by_cases hne : other = top
      · subst hne
        rw [hput, hopen]
        rfl
      · rw [hothers other hother hne]

/-- What options leave: each that is given has its value, and all other settings have theirs. -/
structure HasPutAll (base : Memory) (s s' : Settings) (os : List (Text × Option Scalar)) :
    Prop where
  own : IsOwn base s'
  item?_eq : ∀ o ∈ os, s'.item? o.1 = (o.2.map Item.scalar).or (s.item? o.1)
  others : ∀ key, IsOption key → path key ∉ os.map (fun o => path o.1) →
    s'.item? key = s.item? key

/-- All options that are given are put if their sections take them; otherwise one of them meets a
    value of the wrong kind. -/
theorem IsOwn.assignAll (h : IsOwn base s) (os : List (Text × Option Scalar))
    (hos : ∀ o ∈ os, IsOption o.1) (hdistinct : (os.map fun o => path o.1).Nodup) :
    ((∀ e ∈ given os, (s.openSection? (sectionOf e.1)).isSome = true) ∧
      ∃ s', assignAll (given os) s = (pure (), s') ∧ HasPutAll base s s' os) ∨
    ((∃ e ∈ given os, s.openSection? (sectionOf e.1) = none) ∧
      ∃ s', assignAll (given os) s = (Run.fail .wrongKind, s')) := by
  -- over the options that are left; no later one puts anything under the name of the first
  induction os generalizing s with
  | nil => exact .inl ⟨nofun, s, rfl, h, nofun, fun _ _ _ => rfl⟩
  | cons o os ih =>
    obtain ⟨key, option⟩ := o
    obtain ⟨hkey, hrest⟩ := List.forall_mem_cons.1 hos
    obtain ⟨hnew, hnodup⟩ := List.nodup_cons.1 hdistinct
    cases option with
    | none =>
      rcases ih h hrest hnodup with ⟨hopen, s', hrun, hput⟩ | hfails
      · refine .inl ⟨hopen, s', hrun, hput.own, ?_, fun k hk hmem => ?_⟩
        · exact List.forall_mem_cons.2 ⟨hput.others key hkey hnew, hput.item?_eq⟩
        · exact hput.others k hk fun h => hmem (List.mem_cons_of_mem _ h)
      · exact .inr hfails
    | some v =>
      have hall : given ((key, some v) :: os) = (key, .scalar v) :: given os := rfl
      rw [hall]
      rcases h.assign hkey (.scalar v) with ⟨hclosed, hfail⟩ | ⟨hopen, s₁, hrun, hput⟩
      · exact .inr ⟨⟨_, List.mem_cons_self, hclosed⟩, s, Action.bind_of_fail hfail _⟩
      · -- the sections that are open to the rest are those that were open from the start
        have hsections : ∀ e ∈ given os,
            (s₁.openSection? (sectionOf e.1)).isSome = (s.openSection? (sectionOf e.1)).isSome := by
          intro e he
          obtain ⟨o, ho, hgiven⟩ := List.mem_filterMap.1 he
          obtain ⟨w, -, rfl⟩ := Option.map_eq_some_iff.1 hgiven
          obtain ⟨top, htop, name, hpath⟩ := hrest o ho
          rw [sectionOf, hpath]
          exact hput.isSome_openSection? top htop
        rw [Settings.assignAll, Action.bind_of_pure hrun]
        rcases ih hput.own hrest hnodup with ⟨hopens, s', hrun', hput'⟩ | ⟨⟨e, he, hnone⟩, hfails⟩
        · refine .inl ⟨List.forall_mem_cons.2 ⟨hopen, fun e he => ?_⟩, s', hrun', hput'.own,
            List.forall_mem_cons.2 ⟨?_, fun o ho => ?_⟩, fun k hk hmem => ?_⟩
          · rw [← hsections e he]
            exact hopens e he
          · rw [hput'.others key hkey hnew, hput.item?_eq key hkey, if_pos rfl]
            rfl
          · have hne : path o.1 ≠ path key := fun heq => hnew (List.mem_map.2 ⟨o, ho, heq⟩)
            rw [hput'.item?_eq o ho, hput.item?_eq o.1 (hrest o ho), if_neg hne]
          · rw [List.map_cons, List.mem_cons, not_or] at hmem
            rw [hput'.others k hk hmem.2, hput.item?_eq k hk, if_neg hmem.1]
        · refine .inr ⟨⟨e, List.mem_cons_of_mem _ he, ?_⟩, hfails⟩
          rw [← Option.isNone_iff_eq_none, ← Option.not_isSome, ← hsections e he, hnone]
          rfl

end Settings

end Tracewright
