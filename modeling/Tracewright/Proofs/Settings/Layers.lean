/-
  Tracewright.Proofs.Settings.Layers

  A document over the usual settings.  Its mappings may be as deep as one likes
  and hold each other: the usual sections have no parts, so what is laid over
  them goes no deeper than they are.

    * `mergeInto_of_scalars` — a mapping over one without parts.
    * `TakesLayer.step_into`, `TakesLayer.step_over`
                             — one entry of a mapping over the sections.
    * `TakesLayer.exists_mergeInto`
                             — all of them.
    * `exists_hasLaid`        — what the settings hold after that, one by one.
    * `get_fresh`, `IsOwn.take_eq`
                             — later settings are the usual ones again.
-/
import Tracewright.Proofs.Settings.Overlay
import Tracewright.Proofs.Settings.Own
import Tracewright.Settings.Load

namespace Tracewright

namespace Memory

variable {m : Memory} {b l : Nat} {base layer : Mapping Item}

/-- Over scalars there is nothing to go into: every entry of the layer is put. -/
theorem mergeInto_of_scalars (hlb : l ≠ b) (hb : m.mapping? (.ref b) = some base)
    (hl : m.mapping? (.ref l) = some layer) (hdistinct : layer.IsDistinct)
    (hscalars : ∀ e ∈ base, ∃ v, e.2 = .scalar v) (depth : Nat) :
    ∃ m', mergeInto (depth + 1) b l m = (pure (), m') ∧
      m.IsChanged m' b (base.putAll layer) := by
  -- what stands under the keys that are left is what stood there
  have hthrough := mergeInto_induct (m := m) depth b l layer
    (fun rest m₁ => ∃ cur : Mapping Item, m.IsChanged m₁ b cur ∧ rest.IsDistinct ∧
      cur.putAll rest = base.putAll layer ∧ ∀ e ∈ rest, cur.get? e.1 = base.get? e.1)
    (fun rest m₁ ⟨_, h, _⟩ =>
      entriesAt_of_mapping? ((h.mapping?_of_ne (by simpa using hlb)).trans hl))
    (by
      rintro ⟨k, v⟩ rest m₁ ⟨cur, hm₁, hrest, hputAll, hkeys⟩
      obtain ⟨hfirst, hrest⟩ := List.pairwise_cons.1 hrest
      obtain ⟨hk, hkeys⟩ := List.forall_mem_cons.1 hkeys
      have hcur := hm₁.mapping?_eq
      have hput := isChanged_putAt hcur k v
      refine ⟨m₁.putAt b k v, mergeEntry_eq_put fun j hj => .inl ?_, cur.put k v,
        ⟨hput.depths_eq.trans hm₁.depths_eq, hput.mapping?_eq, fun q hq =>
          (hput.frame q hq).trans (hm₁.frame q hq)⟩, hrest, hputAll, fun e he => ?_⟩
      · rw [entriesAt_of_mapping? hcur, hk] at hj
        obtain ⟨e, he, -, rfl⟩ := Mapping.exists_mem_of_get? hj
        obtain ⟨s, hs⟩ := hscalars e he
        rw [hs]
        rfl
      · rw [Mapping.get?_put, hfirst e he, hkeys e he]
        rfl)
    ⟨base, ⟨rfl, hb, fun _ _ => rfl⟩, hdistinct, rfl, fun _ _ => rfl⟩
  obtain ⟨m', hrun, cur, hm', -, hputAll, -⟩ := hthrough
  rw [← hputAll]
  exact ⟨m', hrun, hm'⟩

end Memory

namespace Settings

variable {s : Settings} {top : Text} {l : Nat} {k : Scalar} {i : Item} {m : Memory}
  {entries layer rest : Mapping Item} {d : Document} {depths : Depths}

/-! ## A mapping over sections without parts -/

/-- What a section is after a mapping has been laid over the settings. -/
def laidSection (s : Settings) (layer : Mapping Item) (top : Text) : Option (Mapping Item) :=
  match layer.getText? top with
  | none => s.openSection? top
  | some i => (s.memory.mapping? i).map ((s.openSection? top).getD []).putAll

/-- Settings and a mapping that is laid over them: there is nothing in the settings but sections,
    and nothing but scalars in these; and the mapping leads to none of them. -/
structure TakesLayer (s : Settings) (l : Nat) (layer : Mapping Item) : Prop where
  own : IsOwn s.memory s
  keys : ∀ k j, (s.memory.entriesAt 5).get? k = some j → ∃ top ∈ sections, k = .text top
  scalars : ∀ top ∈ sections, ∃ entries, s.openSection? top = some entries ∧
    ∀ e ∈ entries, ∃ v, e.2 = .scalar v
  layer_eq : s.memory.mapping? (.ref l) = some layer
  layer_apart : 10 ≤ l
  apart : ∀ e ∈ layer, ∀ q, e.2 = .ref q → 10 ≤ q
  distinct : layer.IsDistinct
  distinct_below : ∀ e ∈ layer, ∀ entries, s.memory.mapping? e.2 = some entries →
    entries.IsDistinct

/-- While the mapping is gone through: sections of which its rest speaks are as they were, and
    the others are as they will be. -/
structure IsLaying (s : Settings) (layer rest : Mapping Item) (m : Memory) : Prop where
  own : IsOwn s.memory { s with memory := m }
  distinct : rest.IsDistinct
  subset : ∀ e ∈ rest, e ∈ layer
  keys : ∀ e ∈ rest, (m.entriesAt 5).get? e.1 = (s.memory.entriesAt 5).get? e.1
  openSection?_eq : ∀ top ∈ sections, openSection? { s with memory := m } top =
    if (rest.getText? top).isSome = true then s.openSection? top else laidSection s layer top

/-- An entry of the layer is the same all the while. -/
theorem TakesLayer.mapping?_eq (h : TakesLayer s l layer) (hm : IsLaying s layer rest m)
    {e : Scalar × Item} (he : e ∈ layer) : m.mapping? e.2 = s.memory.mapping? e.2 := by
  cases hi : e.2 with
  | scalar v => rfl
  | ref q => exact Memory.mapping?_congr (hm.own.frame q (.inr (h.apart e he q hi)))

/-- An entry speaks of a section whose name is its key; the entries after it do not then. -/
theorem getText?_cons_of_same {top : Text} (hfirst : ∀ e ∈ rest, k.same e.1 = false)
    (hk : k.same (.text top) = true) :
    Mapping.getText? ((k, i) :: rest) top = some i ∧ Mapping.getText? rest top = none := by
  refine ⟨by rw [Mapping.getText?, Mapping.get?, if_pos hk], Mapping.get?_eq_none fun e he => ?_⟩
  rw [← Scalar.same_congr hk]
  exact hfirst e he

/-- A mapping in the layer goes into the section that stands under its key. -/
theorem TakesLayer.step_into (h : TakesLayer s l layer) {depth : Nat} (htop : top ∈ sections)
    (hmapping : (m.mapping? i).isSome = true)
    (hm : IsLaying s layer ((.text top, i) :: rest) m) :
    ∃ m', Memory.mergeEntry (Memory.mergeInto (depth + 1)) 5 (.text top) i m = (pure (), m') ∧
      IsLaying s layer rest m' := by
  obtain ⟨hfirst, hrest⟩ := List.pairwise_cons.1 hm.distinct
  obtain ⟨hlayer, hsubset⟩ := List.forall_mem_cons.1 hm.subset
  obtain ⟨-, hkeys⟩ := List.forall_mem_cons.1 hm.keys
  obtain ⟨root, hroot, -⟩ := hm.own.stands
  have hentries : m.entriesAt 5 = root := Memory.entriesAt_of_mapping? hroot
  have hsame : m.mapping? i = s.memory.mapping? i := h.mapping?_eq hm hlayer
  have hget : layer.get? (.text top) = some i := h.distinct.get?_of_mem hlayer
  obtain ⟨entries', hentries'⟩ := Option.isSome_iff_exists.1 hmapping
  obtain ⟨r, rfl, -⟩ := Memory.mapping?_eq_some_iff.1 hentries'
  obtain ⟨hthere, hnone⟩ :=
    getText?_cons_of_same (i := .ref r) hfirst (Scalar.same_self (.text top))
  -- nothing has been put into the section yet
  obtain ⟨old, hold, hscalars⟩ := h.scalars top htop
  have hnow : openSection? { s with memory := m } top = some old := by
    rw [hm.openSection?_eq top htop, hthere, hold]
    rfl
  obtain ⟨hcell, hbelow⟩ := hm.own.getText?_of_openSection? hroot htop hnow
  have hr := h.apart _ hlayer r rfl
  have hbounds := cell_bounds htop
  obtain ⟨m', hrun, hm'⟩ := Memory.mergeInto_of_scalars (by omega) hbelow hentries'
    (h.distinct_below _ hlayer _ (hsame ▸ hentries')) hscalars depth
  obtain ⟨hown, hput, hothers⟩ := hm.own.of_section htop (by rw [hnow]; rfl) hm'
  refine ⟨m', ?_, hown, hrest, hsubset, fun e he => ?_, fun other hotherTop => ?_⟩
  · rw [Memory.mergeEntry_eq_merge (hentries ▸ hcell) hbelow hentries']
    exact hrun
  · rw [Memory.entriesAt_congr (hm'.frame 5 (by omega))]
    exact hkeys e he
  · by_cases hne : other = top
    · subst hne
      rw [hput, hnone, laidSection, Mapping.getText?, hget]
      simp only [← hsame, hentries', hold]
      rfl
    · have hk : ¬ Scalar.same (.text top) (.text other) = true := by
        rw [Mapping.same_text_iff]
        exact fun h => hne (Scalar.text.inj h).symm
      have hother : Mapping.getText? ((.text top, .ref r) :: rest) other =
          Mapping.getText? rest other := by
        rw [Mapping.getText?, Mapping.get?, if_neg hk]
      rw [hothers other hotherTop hne, hm.openSection?_eq other hotherTop, hother]

/-- An entry that goes into no section takes the place of what stood under its key. -/
theorem TakesLayer.step_over (h : TakesLayer s l layer) {depth : Nat}
    (hleaf : ∀ top ∈ sections, k.same (.text top) = true → m.mapping? i = none)
    (hm : IsLaying s layer ((k, i) :: rest) m) :
    ∃ m', Memory.mergeEntry (Memory.mergeInto (depth + 1)) 5 k i m = (pure (), m') ∧
      IsLaying s layer rest m' := by
  obtain ⟨hfirst, hrest⟩ := List.pairwise_cons.1 hm.distinct
  obtain ⟨hlayer, hsubset⟩ := List.forall_mem_cons.1 hm.subset
  obtain ⟨hkey, hkeys⟩ := List.forall_mem_cons.1 hm.keys
  obtain ⟨root, hroot, -⟩ := hm.own.stands
  have hentries : m.entriesAt 5 = root := Memory.entriesAt_of_mapping? hroot
  have hsame : m.mapping? i = s.memory.mapping? i := h.mapping?_eq hm hlayer
  have hget : layer.get? k = some i := h.distinct.get?_of_mem hlayer
  have hput := Memory.isChanged_putAt hroot k i
  obtain ⟨hown, hsections⟩ := hm.own.of_root hroot hleaf hput
  refine ⟨m.putAt 5 k i, Memory.mergeEntry_eq_put fun j hj => .inr ?_, hown, hrest, hsubset,
    fun e he => ?_, fun top htop => ?_⟩
  · rw [hkey] at hj
    obtain ⟨top, htop, rfl⟩ := h.keys k j hj
    exact hleaf top htop (Scalar.same_self _)
  · rw [Memory.entriesAt_of_mapping? hput.mapping?_eq, Mapping.get?_put, hfirst e he,
      ← hkeys e he, hentries]
    rfl
  · rw [hsections top htop]
    -- under the name of a section it is closed from now on; no other section has changed
    by_cases hk : k.same (.text top) = true
    · have hlaid : layer.getText? top = some i := by
        rw [← hget, Mapping.getText?, Mapping.get?_congr layer hk]
      rw [if_pos hk, (getText?_cons_of_same (i := i) hfirst hk).2, laidSection, hlaid]
      simp only [← hsame, hleaf top htop hk]
      rfl
    · have hother : Mapping.getText? ((k, i) :: rest) top = Mapping.getText? rest top := by
        rw [Mapping.getText?, Mapping.get?, if_neg hk]
      rw [if_neg hk, hm.openSection?_eq top htop, hother]

/-- One entry of the layer: it goes into its section, or it takes its place. -/
theorem TakesLayer.step (h : TakesLayer s l layer) {depth : Nat}
    (hm : IsLaying s layer ((k, i) :: rest) m) :
    ∃ m', Memory.mergeEntry (Memory.mergeInto (depth + 1)) 5 k i m = (pure (), m') ∧
      IsLaying s layer rest m' := by
  by_cases hgoes : ∃ top ∈ sections, k = .text top ∧ (m.mapping? i).isSome = true
  · obtain ⟨top, htop, rfl, hmapping⟩ := hgoes
    exact h.step_into htop hmapping hm
  · refine h.step_over (fun top htop hk => ?_) hm
    refine Option.not_isSome_iff_eq_none.1 fun hsome => hgoes ⟨top, htop, ?_, hsome⟩
    exact Mapping.same_text_iff.1 hk

/-- The mapping has been laid over the sections; two steps deep is deep enough. -/
theorem TakesLayer.exists_mergeInto (h : TakesLayer s l layer) {depth : Nat} (hdepth : 2 ≤ depth) :
    ∃ m', Memory.mergeInto depth 5 l s.memory = (pure (), m') ∧
      IsOwn s.memory { s with memory := m' } ∧ ∀ top ∈ sections,
        openSection? { s with memory := m' } top = laidSection s layer top := by
  obtain ⟨depth, rfl⟩ := Nat.exists_eq_add_of_le' hdepth
  have hlayer := Memory.entriesAt_of_mapping? h.layer_eq
  obtain ⟨m', hrun, hm'⟩ := Memory.mergeInto_induct (depth + 1) 5 l layer (IsLaying s layer)
    (fun rest m hm => by
      rw [Memory.entriesAt_congr (hm.own.frame l (.inr h.layer_apart)), hlayer])
    (fun e rest m hm => h.step hm)
    ⟨h.own, h.distinct, fun _ he => he, fun _ _ => rfl, fun top _ => by
      rw [laidSection]
      cases layer.getText? top <;> rfl⟩
  exact ⟨m', hrun, hm'.own, hm'.openSection?_eq⟩

/-! ## A document over the usual settings -/

/-- The memory of the first settings once it holds a document, too. -/
def taken (depths : Depths) (d : Document) : Memory := (usual depths).memory.append d.objects

/-- The objects of the document come after the settings. -/
theorem object?_taken (depths : Depths) (d : Document) (r : Nat) :
    (taken depths d).object? (r + 10) = d.objects[r]?.map (Object.shift 10) :=
  Memory.object?_append_add (usual depths).memory d.objects r

theorem object?_taken_of_lt (depths : Depths) (d : Document) {q : Nat} (hq : q < 10) :
    (taken depths d).object? q = (usual depths).memory.object? q :=
  Memory.object?_append_of_lt hq d.objects

theorem mapping?_taken (depths : Depths) (d : Document) {i : Item}
    (hi : i.IsBelow d.objects.length) :
    (taken depths d).mapping? (i.shift 10) =
      ((d.memory depths).mapping? i).map (Mapping.mapValues (Item.shift 10)) :=
  Memory.mapping?_shift depths (fun r _ => object?_taken depths d r) hi

/-- An entry of a mapping in a document leads to an object of the document. -/
theorem isBelow_of_mem {r : Nat} (hr : (d.memory depths).mapping? (.ref r) = some entries)
    {e : Scalar × Item} (he : e ∈ entries) : e.2.IsBelow d.objects.length :=
  d.closed _ (List.mem_of_getElem? (Memory.mapping?_ref_eq_some_iff.1 hr)) e.2
    (List.mem_map_of_mem he)

/-- In a mapping of a document no key stands twice, when it has moved up. -/
theorem isDistinct_shift {i : Item} (hi : (d.memory depths).mapping? i = some entries) :
    Mapping.IsDistinct (entries.mapValues (Item.shift 10)) := by
  obtain ⟨r, -, hr⟩ := Memory.mapping?_eq_some_iff.1 hi
  exact (Mapping.isDistinct_mapValues_iff _).2 (d.distinct _ (List.mem_of_getElem? hr))

/-- The settings as they are when the document has been taken up. -/
theorem isOwn_usual (depths : Depths) (d : Document) :
    IsOwn (taken depths d) { usual depths with memory := taken depths d } := by
  have hroot : (taken depths d).mapping? (.ref 5) = (usual depths).memory.mapping? (.ref 5) :=
    Memory.mapping?_congr (object?_taken_of_lt depths d (by decide))
  refine ⟨rfl, rfl, fun _ _ => rfl, _, hroot, fun top htop => ?_⟩
  simp only [sections, List.mem_cons, List.not_mem_nil, or_false] at htop
  rcases htop with rfl | rfl | rfl | rfl
  all_goals exact ⟨_, rfl, fun _ => rfl⟩

/-- Nothing but scalars stands in the usual sections. -/
theorem exists_section_usual (depths : Depths) (htop : top ∈ sections) :
    ∃ entries, (usual depths).openSection? top = some entries ∧
      ∀ e ∈ entries, ∃ v, e.2 = .scalar v := by
  simp only [sections, List.mem_cons, List.not_mem_nil, or_false] at htop
  rcases htop with rfl | rfl | rfl | rfl
  all_goals exact ⟨_, rfl, by simp [Item.shift]⟩

theorem openSection?_taken (depths : Depths) (d : Document) (htop : top ∈ sections) :
    openSection? { usual depths with memory := taken depths d } top =
      (usual depths).openSection? top := by
  have hbelow (q : Nat) (hq : q < 10) :
      (taken depths d).mapping? (.ref q) = (usual depths).memory.mapping? (.ref q) :=
    Memory.mapping?_congr (object?_taken_of_lt depths d hq)
  rw [(isOwn_usual depths d).openSection?_eq (hbelow 5 (by decide))]
  simp only [sections, List.mem_cons, List.not_mem_nil, or_false] at htop
  rcases htop with rfl | rfl | rfl | rfl
  · exact hbelow 6 (by decide)
  · exact hbelow 7 (by decide)
  · exact hbelow 8 (by decide)
  · exact hbelow 9 (by decide)

/-- A mapping of a document can be laid over the usual settings. -/
theorem takesLayer_usual {r : Nat} (hr : (d.memory depths).mapping? (.ref r) = some entries) :
    TakesLayer { usual depths with memory := taken depths d } (r + 10)
      (entries.mapValues (Item.shift 10)) := by
  have hlt : r < d.objects.length :=
    Memory.lt_length_of_object? (Memory.mapping?_ref_eq_some_iff.1 hr)
  -- the entries that have moved up are those of the document
  have hentry {e : Scalar × Item} (he : e ∈ entries.mapValues (Item.shift 10)) :
      ∃ i : Item, i.IsBelow d.objects.length ∧ e.2 = i.shift 10 := by
    obtain ⟨e', he', rfl⟩ := List.mem_map.1 he
    exact ⟨e'.2, isBelow_of_mem hr he', rfl⟩
  refine ⟨isOwn_usual depths d, fun k j hj => ?_, fun top htop => ?_, ?_, Nat.le_add_left _ _,
    fun e he q hq => ?_, ?_, fun e he below hbelow => ?_⟩
  · have hroot : (taken depths d).entriesAt 5 =
        sections.map fun top => (.text top, .ref (cell top)) :=
      Memory.entriesAt_congr (object?_taken_of_lt depths d (by decide))
    rw [hroot] at hj
    obtain ⟨e, he, hsame, -⟩ := Mapping.exists_mem_of_get? hj
    obtain ⟨top, htop, rfl⟩ := List.mem_map.1 he
    rw [Scalar.same_comm, Mapping.same_text_iff] at hsame
    exact ⟨top, htop, hsame⟩
  · rw [openSection?_taken depths d htop]
    exact exists_section_usual depths htop
  · have hlayer := mapping?_taken (i := .ref r) depths d hlt
    rw [hr] at hlayer
    exact hlayer
  · obtain ⟨i, -, hi⟩ := hentry he
    rw [hi] at hq
    cases i with
    | scalar v => cases hq
    | ref r => exact Item.ref.inj hq ▸ Nat.le_add_left _ _
  · exact isDistinct_shift hr
  · obtain ⟨i, hi, he⟩ := hentry he
    have hmoved : (taken depths d).mapping? (i.shift 10) = some below := he ▸ hbelow
    rw [mapping?_taken depths d hi, Option.map_eq_some_iff] at hmoved
    obtain ⟨below', hbelow', rfl⟩ := hmoved
    exact isDistinct_shift hbelow'

/-- What settings hold once a document has been laid over the usual ones: where the document has a
    mapping in the place of a section or says nothing about it, each setting has the value of the
    document, or else the usual one. -/
structure HasLaid (depths : Depths) (d : Document) (s : Settings) : Prop where
  own : IsOwn (taken depths d) s
  isSome_openSection?_iff : ∀ top ∈ sections,
    (s.openSection? top).isSome = true ↔ IsOpen (d.memory depths) d.root top
  item?_eq : ∀ key, IsOption key → IsOpen (d.memory depths) d.root (sectionOf key) →
    s.item? key = (((d.memory depths).find? d.root (path key)).map (Item.shift 10)).or
      ((usual depths).item? key)

/-- Nothing has been laid over the settings. -/
theorem hasLaid_usual (depths : Depths) : HasLaid depths (.ofScalar .null) (usual depths) := by
  have htaken : taken depths (.ofScalar .null) = (usual depths).memory := by
    rw [taken, Memory.append, Document.ofScalar, List.map_nil, List.append_nil]
  have hown := isOwn_usual depths (.ofScalar .null)
  rw [htaken] at hown
  have hnothing (k : Text) (ks : List Text) :
      (Document.memory (.ofScalar .null) depths).find? (.scalar .null) (k :: ks) = none := rfl
  refine ⟨htaken ▸ hown, fun top htop => ?_, fun key hkey _ => ?_⟩
  · obtain ⟨entries, hentries, -⟩ := exists_section_usual depths htop
    rw [hentries]
    exact ⟨fun _ => nofun, fun _ => rfl⟩
  · obtain ⟨top, -, name, hpath⟩ := hkey
    rw [hpath]
    rfl

/-- The mapping of a document is laid over the usual settings, however deep it is and whatever
    holds what within it. -/
theorem exists_hasLaid (depths : Depths) (hentries : d.entries?.isSome = true) :
    ∃ s, lay d (usual depths) = (pure (), s) ∧ HasLaid depths d s := by
  obtain ⟨entries, hentries⟩ := Option.isSome_iff_exists.1 hentries
  rw [d.entries?_eq depths] at hentries
  obtain ⟨r, hr, -⟩ := Memory.mapping?_eq_some_iff.1 hentries
  rw [hr] at hentries
  have htakes := takesLayer_usual hentries
  obtain ⟨m', hrun, hown, hsections⟩ := htakes.exists_mergeInto depths.two_le_merging
  have hlay : lay d (usual depths) = (pure (), { usual depths with memory := m' }) := by
    have hlay : lay d (usual depths) = acting (Memory.mergeInto depths.merging 5 (r + 10))
        { usual depths with memory := taken depths d } := by
      rw [lay, Memory.adopt, hr]
      rfl
    rw [hlay, acting]
    simp only [hrun]
  -- what the layer says about a section is what the document says
  have hlayer (top : Text) : Mapping.getText? (entries.mapValues (Item.shift 10)) top =
      (entries.getText? top).map (Item.shift 10) :=
    Mapping.get?_mapValues _ _ _
  have hmapping {top : Text} {i : Item} (hi : entries.getText? top = some i) :
      (taken depths d).mapping? (i.shift 10) =
        ((d.memory depths).mapping? i).map (Mapping.mapValues (Item.shift 10)) :=
    mapping?_taken depths d (isBelow_of_mem hentries (Mapping.mem_of_getText? hi))
  refine ⟨_, hlay, hown, fun top htop => ?_, fun key hkey hopen => ?_⟩
  · obtain ⟨usualEntries, husual, -⟩ := exists_section_usual depths htop
    rw [hsections top htop, laidSection, hlayer, openSection?_taken depths d htop, husual, IsOpen,
      hr, Memory.find?_cons hentries]
    cases hi : entries.getText? top with
    | none =>
      refine ⟨fun _ i hi => ?_, fun _ => rfl⟩
      cases hi
    | some i =>
      simp only [Option.map_some, hmapping hi, Option.isSome_map, Option.bind_some, Memory.find?,
        Option.mem_def, Option.some.injEq, forall_eq']
  · obtain ⟨top, htop, name, hpath⟩ := hkey
    obtain ⟨usualEntries, husual, -⟩ := exists_section_usual depths htop
    have htopOf : sectionOf key = top := by rw [sectionOf, hpath]; rfl
    rw [item?_eq hpath, hsections top htop, laidSection, hlayer, openSection?_taken depths d htop,
      item?_eq hpath, husual, hpath, hr, Memory.find?_cons hentries]
    rw [htopOf, IsOpen, hr, Memory.find?_cons hentries] at hopen
    cases hi : entries.getText? top with
    | none => rfl
    | some i =>
      rw [hi] at hopen
      obtain ⟨below, hbelow⟩ := Option.isSome_iff_exists.1 (hopen i rfl)
      have hdistinct : (below.mapValues (Item.shift 10)).IsDistinct := isDistinct_shift hbelow
      simp only [Option.map_some, hmapping hi, hbelow, Option.bind_some, Option.getD_some,
        Mapping.getText?, Mapping.get?_putAll hdistinct, Mapping.get?_mapValues]
      rw [Memory.find?_cons hbelow, Mapping.getText?]
      cases below.get? (.text name) <;> rfl

/-- What one sees of the document. -/
theorem IsOwn.see_shift (h : IsOwn (taken depths d) s) {i : Item}
    (hi : i.IsBelow d.objects.length) : s.memory.see (i.shift 10) = (d.memory depths).see i := by
  have hdepths : s.memory.depths = depths := h.depths_eq
  have hmoved : ∀ r < d.objects.length,
      s.memory.object? (r + 10) = d.objects[r]?.map (Object.shift 10) := fun r _ =>
    (h.frame (r + 10) (.inr (Nat.le_add_left _ _))).trans (object?_taken depths d r)
  rw [Memory.see_shift hmoved hi, hdepths]

/-! ## Settings of one's own, later -/

/-- The usual settings as a document. -/
def usualDocument : Document where
  objects := usualObjects
  root := .ref 0
  closed := by decide
  root_isBelow := by decide
  distinct := by decide

/-- As long as the first objects are the usual settings, new settings hold what the very first
    ones held. -/
theorem get_fresh {m : Memory} (h : m.objects.take 5 = usualObjects) (key : Text)
    (default : Value) :
    (fresh m).get key default = (usual m.depths).get key default := by
  have hcopy {m : Memory} (h : m.objects.take 5 = usualObjects) :
      (fresh m).get key default =
        (((usualDocument.memory m.depths).find? usualDocument.root (path key)).map
          (usualDocument.memory m.depths).see).getD default := by
    have hfresh : fresh m = ⟨m.append usualObjects, m.objects.length⟩ :=
      congrArg (fun objects => (⟨m.append objects, m.objects.length⟩ : Settings)) h
    have hmoved : ∀ r < usualDocument.objects.length,
        (m.append usualObjects).object? (r + m.objects.length) =
          usualDocument.objects[r]?.map (Object.shift m.objects.length) := fun r _ =>
      Memory.object?_append_add m usualObjects r
    have hroot : (Item.ref m.objects.length) = usualDocument.root.shift m.objects.length :=
      congrArg Item.ref (Nat.zero_add _).symm
    obtain ⟨hfind, hbelow⟩ := Memory.find?_shift m.depths hmoved
      usualDocument.root_isBelow (path key)
    rw [get, item?, hfresh, hroot, hfind]
    cases hi : (usualDocument.memory m.depths).find? usualDocument.root (path key) with
    | none => rfl
    | some i => exact Memory.see_shift hmoved (hbelow i hi)
  exact (hcopy h).trans (hcopy (m := memoryAtStart m.depths) rfl).symm

/-- Settings of one's own are above the usual ones, which stay as they are. -/
theorem IsOwn.take_eq (h : IsOwn (taken depths d) s) : s.memory.objects.take 5 = usualObjects := by
  have hold : ((taken depths d).objects.take 5) = usualObjects := rfl
  rw [← hold]
  refine List.ext_getElem? fun q => ?_
  rw [List.getElem?_take, List.getElem?_take]
  split_ifs with hq
  · exact h.frame q (.inl hq)
  · rfl

end Settings

end Tracewright
