/-
  Tracewright.Proofs.Syscall.Entries

  A listing without mistakes loses nothing and invents nothing: each entry is
  one system call, the one it describes, and the calls are listed by their
  numbers, in whatever order the entries stand.  What counts is the number
  that is read, not its spelling: `1`, `"1"` and `1.9` are one number.

    * `isWellFormed`        — an entry without mistakes.
    * `Describes`           — the entry says what the call is.
    * `exists_entry`        — an entry without mistakes describes its call.
    * `result_addEntries`   — entries in turn are their calls in turn.
    * `load_wellFormed`     — files of such entries.
    * `load_overlong_name`  — a name that is there and cannot be written.
-/
import Mathlib.Data.List.Forall2
import Mathlib.Data.List.Perm.Basic
import Tracewright.Proofs.Syscall.Filter
import Tracewright.Proofs.Syscall.Listing

namespace Tracewright.Listing

variable {e : Entry} {parts : Parts} {v w p : Value} {vs : List Value} {es : List Entry} {m : Mask}
  {i : Nat}

/-! ## Entries without mistakes -/

/-- The number of an entry, if it has one. -/
def number? (e : Entry) : Option Int :=
  e.parts.bind fun parts => parts.number.bind fun w => w.toInt.toOption

/-- A number is a mask, and so are names that are known, in letters of either case. -/
def isMask (w : Value) : Bool :=
  !isNoMask w && (namesOf w).all fun f => decide (Text.upper f.write ∈ Mask.flagNames)

/-- The value can be gone through, and what is met are argument slots. -/
def areSlots (p : Value) : Bool :=
  p.elements?.any fun vs => vs.all fun u => u.toInt.toOption.any fun n : Int =>
    decide (0 ≤ n ∧ n < Mask.slotLimit)

/-- A mapping with a number and a name that can be shown; its mask is a number or names that are
    known, and slots, if they are given, are slots. -/
def isWellFormed (e : Entry) : Bool :=
  e.parts.any fun parts => (parts.number.any fun w => w.toInt.toOption.isSome) &&
    parts.name.any Value.isWritable && isMask (maskOf parts) && parts.positions.all areSlots

theorem number?_eq (h : e.parts = some parts) {n : Int} :
    number? e = some n ↔ HasNumber parts n := by
  rw [number?, h, Option.bind_some, Option.bind_eq_some_iff, HasNumber]
  refine exists_congr fun w => and_congr_right fun _ => ?_
  exact ⟨eq_ok_of_toOption, fun h => by rw [h]; rfl⟩

theorem hasMask_of_isMask (h : isMask w = true) : HasMask w := by
  rw [isMask, Bool.and_eq_true, Bool.not_eq_true', List.all_eq_true] at h
  exact ⟨h.1, fun f hf => Mask.isSome_flag?_iff.2 (of_decide_eq_true (h.2 f hf))⟩

/-! ## Masks -/

/-- A mask asks for a place: a number by its bits, names each for a place of its own. -/
def Asks (w : Value) (i : Nat) : Prop :=
  match w with
  | .int n => Int.testBit n i = true
  | .bool b => b = true ∧ i = 0
  | w => ∃ f ∈ namesOf w, Mask.flagNames[i]? = some (Text.upper f.write)

theorem bit_of_flag (h : (flag v).result = .ok m) :
    m.bit i = true ↔ Mask.flagNames[i]? = some (Text.upper v.write) := by
  rw [flag] at h
  cases hflag : Mask.flag? v.write with
  | none =>
    rw [hflag] at h
    cases h
  | some m' =>
    rw [hflag] at h
    cases h
    exact Mask.bit_of_flag? hflag

/-- Names ask for their places together: neither their order matters nor how often one is given. -/
theorem bit_of_flags (h : (flags vs).result = .ok m) :
    m.bit i = true ↔ ∃ f ∈ vs, Mask.flagNames[i]? = some (Text.upper f.write) := by
  induction vs generalizing m with
  | nil =>
    cases h
    rw [Mask.bit_zero]
    exact ⟨nofun, nofun⟩
  | cons v vs ih =>
    rw [flags] at h
    obtain ⟨m₁, hm₁, h⟩ := Run.result_bind_eq_ok h
    obtain ⟨m₂, hm₂, h⟩ := Run.result_bind_eq_ok h
    cases h
    rw [Mask.bit_union, Bool.or_eq_true, bit_of_flag hm₁, ih hm₂, List.exists_mem_cons_iff]

/-- What is neither a number nor a text asks by its elements, if it has any. -/
theorem bit_of_elements
    (hasks : Asks w i = ∃ f ∈ namesOf w, Mask.flagNames[i]? = some (Text.upper f.write))
    (hnames : namesOf w = w.elements?.getD [])
    (hmask : mask w = (w.elements?.map flags).getD
      (if w.isTrue then Run.fail .wrongKind else pure 0))
    (h : (mask w).result = .ok m) : m.bit i = true ↔ Asks w i := by
  rw [hasks, hnames]
  rw [hmask] at h
  cases hvs : w.elements? with
  | some vs =>
    rw [hvs] at h
    exact bit_of_flags h
  | none =>
    rw [hvs, Option.map_none, Option.getD_none] at h
    split_ifs at h
    · cases h
    · cases h
      rw [Mask.bit_zero]
      constructor
      · intro hi
        cases hi
      · rintro ⟨f, hf, -⟩
        cases hf

theorem bit_of_mask (h : (mask w).result = .ok m) : m.bit i = true ↔ Asks w i := by
  cases w with
  | scalar s =>
    cases s with
    | int n =>
      cases h
      rw [Mask.bit_eq_testBit]
      exact Iff.rfl
    | bool b =>
      cases h
      cases b with
      | false =>
        show Mask.bit 0 i = true ↔ _
        rw [Mask.bit_zero]
        constructor
        · intro hi
          cases hi
        · rintro ⟨hb, -⟩
          cases hb
      | true =>
        -- the truth value is the number one, which is the mask of the first slot
        show (Mask.string 0).bit i = true ↔ _
        rw [Mask.bit_string]
        exact ⟨fun hi => ⟨rfl, hi.symm⟩, fun hi => hi.2.symm⟩
    | text t =>
      refine (bit_of_flag h).trans ?_
      constructor
      · exact fun hi => ⟨_, List.mem_singleton_self _, hi⟩
      · rintro ⟨f, hf, hi⟩
        rwa [List.mem_singleton.1 hf] at hi
    | _ => exact bit_of_elements rfl rfl rfl h
  | _ => exact bit_of_elements rfl rfl rfl h

/-! ## Slots -/

theorem exists_slots (h : areSlots p = true) :
    ∃ (vs : List Value) (is : List (Fin Mask.slotLimit)), p.elements? = some vs ∧
      vs.map Value.toInt = is.map fun i => .ok (i.val : Int) := by
  obtain ⟨vs, hvs, h⟩ := (Option.any_eq_true _ _).1 h
  rw [List.all_eq_true] at h
  suffices ∃ is : List (Fin Mask.slotLimit),
      vs.map Value.toInt = is.map fun i => .ok (i.val : Int) from
    this.elim fun is his => ⟨vs, is, hvs, his⟩
  clear hvs
  induction vs with
  | nil => exact ⟨[], rfl⟩
  | cons u vs ih =>
    obtain ⟨hu, hvs⟩ := List.forall_mem_cons.1 h
    obtain ⟨is, his⟩ := ih hvs
    obtain ⟨n, hn, hslot⟩ := (Option.any_eq_true _ _).1 hu
    rw [decide_eq_true_eq] at hslot
    refine ⟨⟨n.toNat, by omega⟩ :: is, ?_⟩
    rw [List.map_cons, List.map_cons, his, eq_ok_of_toOption hn, Int.toNat_of_nonneg hslot.1]

/-- Slots that are given are taken as they are given. -/
theorem result_given {number : Int} {name : Text} {available : Bool}
    {is : List (Fin Mask.slotLimit)} (hvs : p.elements? = some vs)
    (his : vs.map Value.toInt = is.map fun i => .ok (i.val : Int)) :
    (slots name p >>= fun ns => Run.ofCheck
      (Descriptor.checked number name available ns.length ns m)).result =
        .ok ⟨number, name, available, is, m⟩ := by
  have hslots : (slots name p).result = .ok (is.map fun i => (i.val : Int)) := by
    rw [slots, hvs]
    show (integers _ vs).result = _
    rw [result_integers_eq_ok_iff, his, List.map_map]
    rfl
  rw [Run.result_bind_of_ok hslots, checked_length, Descriptor.slots?_eq_some_iff.2 rfl]
  rfl

/-- The slots of a mask are the places it has among the first six, from the lowest on. -/
theorem maskSlots_map_val (m : Mask) :
    (Descriptor.maskSlots m).map Fin.val =
      (List.range Mask.slotLimit).filter (Int.testBit m ·) := by
  rw [← List.map_coe_finRange_eq_range, List.filter_map, Descriptor.maskSlots]
  refine congrArg _ (List.filter_congr fun i _ => ?_)
  exact Mask.bit_eq_testBit m i

/-! ## Calls that are described -/

/-- The parts of an entry say what the call is. -/
structure Parts.Describes (parts : Parts) (d : Descriptor) : Prop where
  number : HasNumber parts d.number
  name : ∃ w, parts.name = some w ∧ d.name = w.write
  /-- The platform has the call unless the entry says otherwise. -/
  available : d.available = (parts.available.map Value.isTrue).getD true
  mask : ∀ i, Int.testBit d.mask i = true ↔ Asks (maskOf parts) i
  /-- Slots that are given are kept in the order they are given in. -/
  given : ∀ p, parts.positions = some p → ∃ vs, p.elements? = some vs ∧
    vs.map Value.toInt = d.slots.map fun i => .ok (i.val : Int)
  /-- Others are the places of the mask, from the lowest on. -/
  derived : parts.positions = none →
    d.slots.map Fin.val = (List.range Mask.slotLimit).filter (Int.testBit d.mask ·)
  strings : d.strings = d.slots.length

/-- The entry says what the call is. -/
def Describes (e : Entry) (d : Descriptor) : Prop :=
  ∃ parts, e.parts = some parts ∧ parts.Describes d

/-- An entry without mistakes describes the call that it is read as. -/
theorem exists_entry (h : isWellFormed e = true) :
    ∃ d, (entry e).result = .ok d ∧ Describes e d := by
  obtain ⟨parts, hparts, h⟩ := (Option.any_eq_true _ _).1 h
  simp only [Bool.and_eq_true] at h
  obtain ⟨⟨⟨hnumber, hname⟩, hmask⟩, hslots⟩ := h
  obtain ⟨u, hu, hint⟩ := (Option.any_eq_true _ _).1 hnumber
  obtain ⟨n, hn⟩ := Option.isSome_iff_exists.1 hint
  obtain ⟨w, hw, hwritable⟩ := (Option.any_eq_true _ _).1 hname
  obtain ⟨m, hm⟩ := exists_mask_iff.2 (hasMask_of_isMask hmask)
  have hnumber : HasNumber parts n := ⟨u, hu, eq_ok_of_toOption hn⟩
  have hbits : ∀ i, Int.testBit m i = true ↔ Asks (maskOf parts) i := by
    intro i
    rw [← Mask.bit_eq_testBit]
    exact bit_of_mask hm
  have havailable : (parts.available.getD (.bool true)).isTrue =
      (parts.available.map Value.isTrue).getD true := by
    cases parts.available <;> rfl
  have hname : (Listing.name e parts).result = .ok w.write := by
    rw [name, hw]
    simp only [Option.isNone_iff_eq_none.1 hwritable, Run.result_pure]
  -- number, name and mask are read in this order, and then the slots are either made or given
  rw [entry_of_parts hparts, Run.result_bind_of_ok (result_number_eq_ok_iff.2 hnumber),
    Run.result_bind_of_ok hname, Run.result_bind_of_ok hm, finish, havailable]
  cases hp : parts.positions with
  | none =>
    refine ⟨_, rfl, parts, hparts, hnumber, ⟨w, hw, rfl⟩, rfl, hbits, fun p hp' => ?_,
      fun _ => maskSlots_map_val m, rfl⟩
    cases hp.symm.trans hp'
  | some p =>
    rw [hp] at hslots
    obtain ⟨vs, is, hvs, his⟩ := exists_slots hslots
    refine ⟨_, result_given hvs his, parts, hparts, hnumber, ⟨w, hw, rfl⟩, rfl, hbits,
      fun p' hp' => ?_, fun hp' => ?_, rfl⟩
    · cases hp.symm.trans hp'
      exact ⟨vs, hvs, his⟩
    · cases hp.symm.trans hp'

/-- The number of an entry is that of its call. -/
theorem Describes.number?_eq {d : Descriptor} (h : Describes e d) : number? e = some d.number := by
  obtain ⟨parts, hparts, h⟩ := h
  exact (Listing.number?_eq hparts).2 h.number

/-- The entry is read as the call, and describes it. -/
def IsEntry (e : Entry) (d : Descriptor) : Prop := (entry e).result = .ok d ∧ Describes e d

theorem exists_entries (h : ∀ e ∈ es, isWellFormed e = true) :
    ∃ ds, List.Forall₂ IsEntry es ds := by
  induction es with
  | nil => exact ⟨[], .nil⟩
  | cons e es ih =>
    obtain ⟨he, hes⟩ := List.forall_mem_cons.1 h
    obtain ⟨d, hd⟩ := exists_entry he
    obtain ⟨ds, hds⟩ := ih hes
    exact ⟨d :: ds, .cons hd hds⟩

/-! ## Entries in turn -/

section Entries

variable {ds : List Descriptor}

/-- Entries in turn are added as their calls are. -/
theorem result_addEntries (h : List.Forall₂ IsEntry es ds) (c : Catalog) :
    (addEntries c es).result = (Run.ofCheck (c.addAll ds)).result := by
  induction h generalizing c with
  | nil => rfl
  | @cons e d es ds hd _ ih =>
    rw [addEntries, Run.result_bind_of_ok hd.1, Catalog.addAll, List.foldlM_cons]
    cases hadd : c.add d with
    | error fault => exact Run.result_bind_of_error rfl _
    | ok c' => exact ih c'

/-- The numbers of entries are those of their calls. -/
theorem map_number?_eq (h : List.Forall₂ Describes es ds) :
    es.map number? = (ds.map Descriptor.number).map some := by
  induction h with
  | nil => rfl
  | cons hd _ ih =>
    rw [List.map_cons, List.map_cons, List.map_cons, ih, hd.number?_eq]

theorem nodup_numbers_iff (h : List.Forall₂ Describes es ds) :
    (es.map number?).Nodup ↔ (ds.map Descriptor.number).Nodup := by
  rw [map_number?_eq h, List.nodup_map_iff (Option.some_injective Int)]

end Entries

/-! ## Files -/

section Files

variable {platform : Platform} {files : Files} {file : Text}

/-- A file that holds a list is as its entries in turn are. -/
theorem result_load (h : Lists platform files file es) :
    (load platform files file).result = (addEntries .empty es).result := by
  obtain ⟨d, hd, hes⟩ := h
  have hcatalog : catalog file (d.memory platform.depths) d.root = addEntries .empty es := by
    rcases catalog_cases file (d.memory platform.depths) d.root with ⟨es', hes', hcatalog⟩ | hnone
    · cases hes.symm.trans hes'
      exact hcatalog
    · cases hes.symm.trans hnone.1
  rw [load_eq_recorded, Run.result_bind_of_ok (result_document_eq_ok_iff.2 hd), hcatalog]
  cases hadded : (addEntries .empty es).result with
  | ok c => exact Run.result_bind_of_ok hadded _
  | error e => exact Run.result_bind_of_error hadded _

/-- A file that lists calls of different numbers is taken, and these are its calls. -/
theorem exists_load {ds : List Descriptor} (h : Lists platform files file es)
    (hds : List.Forall₂ IsEntry es ds) (hnodup : (ds.map Descriptor.number).Nodup) :
    ∃ c, (load platform files file).result = .ok c ∧ c.entries = ds := by
  obtain ⟨c, hc, hentries⟩ := Catalog.ofList_of_nodup hnodup
  refine ⟨c, ?_, hentries⟩
  rw [result_load h, result_addEntries hds, ← Catalog.ofList, hc]
  rfl

/-- A file of entries without mistakes that have different numbers is taken.  Each entry becomes
    the call that it describes, there are no other calls, and they are listed by their numbers; the
    order of the entries does not show.  If entries have one number, whatever its spelling, the
    file is not taken, and the first one whose number was there before is said to be at fault, if
    that number can be written. -/
theorem load_wellFormed (hload : Lists platform files file es)
    (hes : ∀ e ∈ es, isWellFormed e = true) :
    ((es.map number?).Nodup → ∃ c ds, (load platform files file).result = .ok c ∧
      List.Forall₂ Describes es ds ∧ c.toList.Perm ds ∧
      c.toList.Pairwise (·.number < ·.number) ∧
      ∀ files' file' es', Lists platform files' file' es' → es'.Perm es →
        ∃ c', (load platform files' file').result = .ok c' ∧ c'.toList = c.toList) ∧
    (¬ (es.map number?).Nodup → ∃ before e after n, es = before ++ e :: after ∧
      (before.map number?).Nodup ∧ number? e = some n ∧ some n ∈ before.map number? ∧
      (∀ c, (load platform files file).result ≠ .ok c) ∧
      (Numeral.isWritable n = true →
        (load platform files file).result = .error (.config (.duplicateNumber n)))) := by
  obtain ⟨ds, hds⟩ := exists_entries hes
  have hdescribed : List.Forall₂ Describes es ds := hds.imp fun _ _ h => h.2
  rw [nodup_numbers_iff hdescribed]
  constructor
  · intro hnodup
    obtain ⟨c, hc, hentries⟩ := exists_load hload hds hnodup
    refine ⟨c, ds, hc, hdescribed, hentries ▸ c.toList_perm, c.toList_ascending, ?_⟩
    intro files' file' es' hload' hperm
    -- the calls of the other file are the same ones in another order
    obtain ⟨ds', hds', hperm'⟩ := List.perm_comp_forall₂ hperm hds
    have hnodup' := ((hperm'.map Descriptor.number).nodup_iff).2 hnodup
    obtain ⟨c', hc', hentries'⟩ := exists_load hload' hds' hnodup'
    refine ⟨c', hc', Catalog.toList_eq_of_perm ?_⟩
    rw [hentries, hentries']
    exact hperm'
  · intro hagain
    obtain ⟨before, d, after, rfl, hbefore, hd⟩ := Catalog.exists_first_again hagain
    have hfirst := List.forall₂_take_append _ _ _ hdescribed
    obtain ⟨e, rest, he, -, hcut⟩ :=
      List.forall₂_cons_right_iff.1 (List.forall₂_drop_append _ _ _ hdescribed)
    refine ⟨es.take before.length, e, rest, d.number, ?_, (nodup_numbers_iff hfirst).2 hbefore,
      he.number?_eq, ?_, ?_⟩
    · rw [← hcut, List.take_append_drop]
    · rw [map_number?_eq hfirst]
      exact List.mem_map_of_mem hd
    · rw [result_load hload, result_addEntries hds, Catalog.addAll_of_mem (c := .empty) hbefore hd]
      exact ⟨nofun, fun hn =>
        Run.result_fail ((Scalar.isNone_obstacle?_int d.number).trans hn)⟩

end Files

/-- The entries that a file of one listing is read as, if it is read as a list. -/
def listed? (listing : Text) : Option (List Entry) :=
  (Yaml.platform.load (listingFile (Text.Utf8.encode listing))
    (Path.ofText "catalog.yaml")).toOption.bind fun d =>
      entries? (d.memory Yaml.platform.depths) d.root

theorem lists_of_listed? {listing : Text} (h : listed? listing = some es) :
    Lists Yaml.platform (listingFile (Text.Utf8.encode listing)) "catalog.yaml" es := by
  obtain ⟨d, hd, hes⟩ := Option.bind_eq_some_iff.1 h
  exact ⟨d, eq_ok_of_toOption hd, hes⟩

/-- Two calls, the greater number first; the other one has its mask from there, slots of its own
    and a date for a name. -/
def unordered : Text :=
  "- &d \x7bnumber: 257, name: openat, mask: [fd_1, str_2]\x7d\n" ++
    "- <<: *d\n  number: '9'\n  name: 2001-12-14\n  positions: [4, '0']\n"

/-- Three calls, and one number in three spellings. -/
def respelled : Text :=
  "- number: 1\n  name: a\n- number: '1'\n  name: b\n- number: 1.9\n  name: c\n"

/-- The first file is taken, and its calls are listed the other way round; the second one is not,
    since `1.9` and the text of a numeral are read as the number one, too. -/
theorem load_wellFormed_unordered :
    (∃ c, (load Yaml.platform (listingFile (Text.Utf8.encode unordered)) "catalog.yaml").result =
        .ok c ∧
      c.toList.map Descriptor.number = [9, 257]) ∧
    (load Yaml.platform (listingFile (Text.Utf8.encode respelled)) "catalog.yaml").result =
      .error (.config (.duplicateNumber 1)) := by
  have hunordered : (listed? unordered).any (fun es => es.all isWellFormed &&
      decide (es.map number? = [some 257, some 9])) = true := by
    decide +kernel
  have hrespelled : (listed? respelled).any (fun es => es.all isWellFormed &&
      decide (es.map number? = [some 1, some 1, some 1])) = true := by
    decide +kernel
  constructor
  · obtain ⟨es, hlisted, hes⟩ := (Option.any_eq_true _ _).1 hunordered
    rw [Bool.and_eq_true, List.all_eq_true, decide_eq_true_eq] at hes
    obtain ⟨htaken, -⟩ := load_wellFormed (lists_of_listed? hlisted) hes.1
    obtain ⟨c, ds, hc, hds, hperm, hascending, -⟩ := htaken (by rw [hes.2]; decide)
    have hnumbers : ds.map Descriptor.number = [257, 9] := by
      apply List.map_injective_iff.2 (Option.some_injective Int)
      rw [← map_number?_eq hds]
      exact hes.2
    obtain ⟨d, ds, rfl, hd, hnumbers⟩ := List.map_eq_cons_iff.1 hnumbers
    obtain ⟨e, ds, rfl, he, hnumbers⟩ := List.map_eq_cons_iff.1 hnumbers
    obtain rfl := List.map_eq_nil_iff.1 hnumbers
    -- there is one ascending order of the two
    have hswapped : [e, d].Pairwise (·.number < ·.number) := by
      rw [List.pairwise_pair, hd, he]
      decide
    have hlist := Catalog.eq_of_perm_of_ascending (hperm.trans (.swap e d [])) hascending hswapped
    refine ⟨c, hc, ?_⟩
    rw [hlist, List.map_cons, List.map_singleton, hd, he]
  · obtain ⟨es, hlisted, hes⟩ := (Option.any_eq_true _ _).1 hrespelled
    rw [Bool.and_eq_true, List.all_eq_true, decide_eq_true_eq] at hes
    obtain ⟨-, hrefused⟩ := load_wellFormed (lists_of_listed? hlisted) hes.1
    obtain ⟨before, v, after, n, rfl, -, hv, -, -, hresult⟩ :=
      hrefused (by rw [hes.2]; decide)
    have hn : some n ∈ (before ++ v :: after).map number? := by
      rw [← hv]
      exact List.mem_map_of_mem (List.mem_append_right _ List.mem_cons_self)
    rw [hes.2] at hn
    obtain rfl : n = 1 := by simpa using hn
    exact hresult (Numeral.isWritable_of_lt (by decide))

/-- A name that is there, and is too long to be written. -/
def overlongName : Text := "- number: 1\n  name: 0x1" ++ List.replicate 3600 '0' ++ "\n"

/-- The entry has a number and a name, and neither a mask nor slots, but it is not taken. -/
theorem load_overlong_name :
    (∃ es, Lists Yaml.platform (listingFile (Text.Utf8.encode overlongName)) "catalog.yaml" es ∧
      es.map number? = [some 1] ∧ ∀ e ∈ es, ∃ parts, e.parts = some parts ∧
        parts.name.isSome = true ∧ parts.mask = none ∧ parts.positions = none) ∧
    (load Yaml.platform (listingFile (Text.Utf8.encode overlongName)) "catalog.yaml").result matches
      .error (.value .overlongNumeral) := by
  have hlisted : (listed? overlongName).any (fun es =>
      decide (es.map number? = [some 1]) && es.all (fun e => e.parts.any fun parts =>
        parts.name.isSome && parts.mask.isNone && parts.positions.isNone) &&
      (addEntries .empty es).result matches .error (.value .overlongNumeral)) = true := by
    decide +kernel
  obtain ⟨es, hlisted, hes⟩ := (Option.any_eq_true _ _).1 hlisted
  rw [Bool.and_eq_true, Bool.and_eq_true, List.all_eq_true, decide_eq_true_eq] at hes
  obtain ⟨⟨hnumbers, hparts⟩, hresult⟩ := hes
  have hlists := lists_of_listed? hlisted
  refine ⟨⟨es, hlists, hnumbers, fun e he => ?_⟩, ?_⟩
  · obtain ⟨parts, hparts, hall⟩ := (Option.any_eq_true _ _).1 (hparts e he)
    simp only [Bool.and_eq_true, Option.isNone_iff_eq_none] at hall
    exact ⟨parts, hparts, hall.1.1, hall.1.2, hall.2⟩
  · rw [result_load hlists]
    exact hresult

end Tracewright.Listing
