/-
  Tracewright.Proofs.Syscall.Listing

  What is wrong with a listing of system calls is said as a fault in the
  listing, with few exceptions.  Here they are all named, for each part of an
  entry, for the entries in turn, and for the file that holds them.

    * `TellsFirst`    — going through values ends with the first bad one, and
                        that one can be told.
    * `TellsEntry`    — what is wrong with an entry can be told.
    * `Surfaces`      — the failures that come of a listing, and no others do.
    * `load_settled`  — when no such failure can come of a file, and which can.
    * `load_escaping` — files that they come of.
-/
import Tracewright.Proofs.Settings.Mode
import Tracewright.Syscall.Listing
import Tracewright.Yaml.Document

namespace Tracewright.Listing

open Run (FailsWith failsWith_pure failsWith_bind failsWith_fail_config_iff failsWith_ofCheck_iff
  failsWith_record result_ofCheck_eq_ok_iff not_failsWith_fail)

/-! ## Values in turn -/

section TellsFirst

variable {good told : Value → Prop} {v : Value} {vs : List Value}

/-- Values are gone through up to the first bad one, and that one can be told. -/
def TellsFirst (good told : Value → Prop) (vs : List Value) : Prop :=
  ∀ before v after, vs = before ++ v :: after → (∀ u ∈ before, good u) → good v ∨ told v

theorem tellsFirst_nil : TellsFirst good told [] := by
  intro before v after h
  cases before <;> cases h

theorem tellsFirst_cons :
    TellsFirst good told (v :: vs) ↔ (good v ∨ told v) ∧ (good v → TellsFirst good told vs) := by
  constructor
  · intro h
    refine ⟨h [] v vs rfl nofun, fun hv before u after hvs hbefore => ?_⟩
    exact h (v :: before) u after (by rw [hvs]; rfl) (List.forall_mem_cons.2 ⟨hv, hbefore⟩)
  · rintro ⟨hv, hrest⟩ before u after hvs hbefore
    cases before with
    | nil =>
      cases hvs
      exact hv
    | cons w before =>
      cases hvs
      obtain ⟨hgood, hbefore⟩ := List.forall_mem_cons.1 hbefore
      exact hrest hgood before u after rfl hbefore

end TellsFirst

/-! ## Masks -/

/-- The value is the name of a capability. -/
def IsFlag (v : Value) : Prop := (Mask.flag? v.write).isSome = true

/-- The names that a mask lists: one, or whatever one meets going through it. -/
def namesOf : Value → List Value
  | .text t => [.text t]
  | v => v.elements?.getD []

/-- Neither a number nor anything that can be gone through, and not false either. -/
def isNoMask : Value → Bool
  | .int _ | .bool _ | .text _ => false
  | v => v.elements?.isNone && v.isTrue

theorem exists_flag_iff {v : Value} : (∃ m, (flag v).result = .ok m) ↔ IsFlag v := by
  rw [flag, IsFlag]
  cases Mask.flag? v.write with
  | some m => exact ⟨fun _ => rfl, fun _ => ⟨m, rfl⟩⟩
  | none =>
    constructor
    · rintro ⟨_, h⟩
      cases h
    · intro h
      cases h

theorem failsWith_flag_iff {v : Value} :
    (flag v).FailsWith Failure.IsConfig ↔ IsFlag v ∨ v.isWritable = true := by
  rw [flag, IsFlag]
  cases Mask.flag? v.write with
  | some m => exact ⟨fun _ => .inl rfl, fun _ => failsWith_pure m⟩
  | none =>
    rw [failsWith_fail_config_iff]
    exact ⟨.inr, fun h => h.resolve_left nofun⟩

theorem exists_flags_iff {vs : List Value} :
    (∃ m, (flags vs).result = .ok m) ↔ ∀ v ∈ vs, IsFlag v := by
  induction vs with
  | nil => exact ⟨fun _ => nofun, fun _ => ⟨0, rfl⟩⟩
  | cons v vs ih =>
    rw [List.forall_mem_cons, ← exists_flag_iff, ← ih, flags]
    constructor
    · rintro ⟨_, h⟩
      obtain ⟨m, hm, h⟩ := Run.result_bind_eq_ok h
      obtain ⟨ms, hms, -⟩ := Run.result_bind_eq_ok h
      exact ⟨⟨m, hm⟩, ms, hms⟩
    · rintro ⟨⟨m, hm⟩, ms, hms⟩
      refine ⟨Mask.union m ms, ?_⟩
      rw [Run.result_bind_of_ok hm, Run.result_bind_of_ok hms, Run.result_pure]

theorem failsWith_flags_iff {vs : List Value} :
    (flags vs).FailsWith Failure.IsConfig ↔ TellsFirst IsFlag (·.isWritable = true) vs := by
  induction vs with
  | nil => exact ⟨fun _ => tellsFirst_nil, fun _ => failsWith_pure 0⟩
  | cons v vs ih =>
    rw [flags, failsWith_bind, failsWith_flag_iff, tellsFirst_cons, ← exists_flag_iff,
      forall_exists_index, ← ih]
    refine and_congr_right fun _ => forall_congr' fun m => imp_congr_right fun _ => ?_
    rw [failsWith_bind]
    exact and_iff_left fun _ _ => failsWith_pure _

/-- The mask of an entry is a number, or names that are known. -/
def HasMask (v : Value) : Prop := isNoMask v = false ∧ ∀ f ∈ namesOf v, IsFlag f

def TellsMask (v : Value) : Prop :=
  isNoMask v = false ∧ TellsFirst IsFlag (·.isWritable = true) (namesOf v)

/-- What a mask comes to: a failure of its own if it is none, a number, names, or one name. -/
theorem mask_cases (v : Value) :
    (isNoMask v = true ∧ mask v = Run.fail .wrongKind) ∨
      isNoMask v = false ∧ ((namesOf v = [] ∧ ∃ m, mask v = pure m) ∨
        mask v = flags (namesOf v) ∨ (namesOf v = [v] ∧ mask v = flag v)) := by
  -- what is no number and no text is gone through if it can be
  have hother (hv : isNoMask v = (v.elements?.isNone && v.isTrue))
      (hnames : namesOf v = v.elements?.getD [])
      (hmask : mask v = (v.elements?.map flags).getD
        (if v.isTrue then Run.fail .wrongKind else pure 0)) :
      (isNoMask v = true ∧ mask v = Run.fail .wrongKind) ∨
        isNoMask v = false ∧ ((namesOf v = [] ∧ ∃ m, mask v = pure m) ∨
          mask v = flags (namesOf v) ∨ (namesOf v = [v] ∧ mask v = flag v)) := by
    rw [hv, hnames, hmask]
    cases v.elements? with
    | some vs => exact .inr ⟨rfl, .inr (.inl rfl)⟩
    | none =>
      cases v.isTrue with
      | true => exact .inl ⟨rfl, rfl⟩
      | false => exact .inr ⟨rfl, .inl ⟨rfl, 0, rfl⟩⟩
  cases v with
  | scalar s =>
    cases s with
    | bool b => exact .inr ⟨rfl, .inl ⟨rfl, _, rfl⟩⟩
    | int n => exact .inr ⟨rfl, .inl ⟨rfl, n, rfl⟩⟩
    | text t => exact .inr ⟨rfl, .inr (.inr ⟨rfl, rfl⟩)⟩
    | _ => exact hother rfl rfl rfl
  | _ => exact hother rfl rfl rfl

theorem exists_mask_iff {v : Value} : (∃ m, (mask v).result = .ok m) ↔ HasMask v := by
  rw [HasMask]
  rcases mask_cases v with ⟨hnone, hmask⟩ | ⟨hv, ⟨hnames, m, hmask⟩ | hmask | ⟨hnames, hmask⟩⟩
  · rw [hmask]
    constructor
    · rintro ⟨_, h⟩
      cases h
    · exact fun h => absurd (hnone.symm.trans h.1) nofun
  · rw [hmask, hnames]
    exact ⟨fun _ => ⟨hv, nofun⟩, fun _ => ⟨m, rfl⟩⟩
  · rw [hmask, exists_flags_iff, and_iff_right hv]
  · rw [hmask, hnames, exists_flag_iff, and_iff_right hv, List.forall_mem_singleton]

theorem failsWith_mask_iff {v : Value} : (mask v).FailsWith Failure.IsConfig ↔ TellsMask v := by
  rw [TellsMask]
  rcases mask_cases v with ⟨hnone, hmask⟩ | ⟨hv, ⟨hnames, m, hmask⟩ | hmask | ⟨hnames, hmask⟩⟩
  · rw [hmask]
    exact ⟨fun h => absurd h (not_failsWith_fail nofun),
      fun h => absurd (hnone.symm.trans h.1) nofun⟩
  · rw [hmask, hnames]
    exact ⟨fun _ => ⟨hv, tellsFirst_nil⟩, fun _ => failsWith_pure m⟩
  · rw [hmask, failsWith_flags_iff, and_iff_right hv]
  · rw [hmask, hnames, failsWith_flag_iff, and_iff_right hv, tellsFirst_cons]
    exact ⟨fun h => ⟨h, fun _ => tellsFirst_nil⟩, And.left⟩

/-! ## Slots -/

/-- The value stands for an integer. -/
def IsInteger (v : Value) : Prop := ∃ n, v.toInt = .ok n

/-- Slots are told of if none of them is infinite, and if their numbers can be shown: those that
    are no slots are shown with the others. -/
def TellsSlots (v : Value) : Prop :=
  ∀ vs, v.elements? = some vs →
    TellsFirst IsInteger (fun u => u.toInt ≠ .error .infinite) vs ∧
      ((∀ u ∈ vs, IsInteger u) →
        ∀ u ∈ vs, ∀ n, u.toInt = .ok n → Numeral.isWritable n = true)

theorem failsWith_noInteger_iff {α : Type} {fault : Cause → ConfigFault} {e : IntFault} {b : Bool}
    (hfault : ∀ cause, (fault cause).isWritable = b) :
    (noInteger fault e : Run α).FailsWith Failure.IsConfig ↔ e ≠ .infinite ∧ b = true := by
  cases e with
  | infinite => exact ⟨fun h => absurd h (not_failsWith_fail nofun), fun h => absurd rfl h.1⟩
  | wrongKind =>
    rw [← hfault .wrongKind]
    exact failsWith_fail_config_iff.trans ⟨fun h => ⟨nofun, h⟩, And.right⟩
  | noNumeral =>
    rw [← hfault .badValue]
    exact failsWith_fail_config_iff.trans ⟨fun h => ⟨nofun, h⟩, And.right⟩

theorem result_integers_eq_ok_iff {fault : Cause → ConfigFault} {vs : List Value} {ns : List Int} :
    (integers fault vs).result = .ok ns ↔ vs.map Value.toInt = ns.map Except.ok := by
  induction vs generalizing ns with
  | nil =>
    rw [integers, Run.result_pure, List.map_nil]
    constructor
    · intro h
      cases h
      rfl
    · intro h
      rw [List.map_eq_nil_iff.1 h.symm]
  | cons v vs ih =>
    rw [integers, List.map_cons]
    cases hv : v.toInt with
    | error e =>
      constructor
      · intro h
        cases e <;> cases h
      · intro h
        cases ns <;> cases h
    | ok n =>
      constructor
      · intro h
        obtain ⟨ms, hms, h⟩ := Run.result_bind_eq_ok h
        cases h
        rw [List.map_cons, ih.1 hms]
      · intro h
        obtain ⟨k, ms, rfl⟩ : ∃ k ms, ns = k :: ms := by
          cases ns with
          | nil => cases h
          | cons k ms => exact ⟨k, ms, rfl⟩
        rw [List.map_cons, List.cons.injEq, Except.ok.injEq] at h
        obtain ⟨rfl, h⟩ := h
        rw [Run.result_bind_of_ok (ih.2 h), Run.result_pure]

theorem failsWith_integers_iff {fault : Cause → ConfigFault}
    (hfault : ∀ cause, (fault cause).isWritable = true) {vs : List Value} :
    (integers fault vs).FailsWith Failure.IsConfig ↔
      TellsFirst IsInteger (fun u => u.toInt ≠ .error .infinite) vs := by
  induction vs with
  | nil => exact ⟨fun _ => tellsFirst_nil, fun _ => failsWith_pure []⟩
  | cons v vs ih =>
    rw [integers, tellsFirst_cons, IsInteger, ← ih]
    cases v.toInt with
    | error e =>
      have hnone : ¬ ∃ n, (Except.error e : Except IntFault Int) = .ok n := fun ⟨_, h⟩ => nomatch h
      rw [or_iff_right hnone, failsWith_noInteger_iff hfault]
      constructor
      · intro h
        refine ⟨fun he => h.1 (Except.error.inj he), fun hn => absurd hn hnone⟩
      · intro h
        exact ⟨fun he => h.1 (congrArg _ he), rfl⟩
    | ok n =>
      show FailsWith _ (integers fault vs >>= fun ns => pure (n :: ns)) ↔ _
      rw [failsWith_bind, and_iff_left fun _ _ => failsWith_pure _]
      exact ⟨fun h => ⟨.inl ⟨n, rfl⟩, fun _ => h⟩, fun h => h.2 ⟨n, rfl⟩⟩

theorem isWritable_of_slots? {ns : List Int} {is : List (Fin Mask.slotLimit)}
    (h : Descriptor.slots? ns = some is) : ∀ n ∈ ns, Numeral.isWritable n = true := by
  induction ns generalizing is with
  | nil => exact nofun
  | cons n ns ih =>
    rw [Descriptor.slots?] at h
    obtain ⟨i, hi, h⟩ := Option.bind_eq_some_iff.1 h
    obtain ⟨js, hjs, -⟩ := Option.bind_eq_some_iff.1 h
    refine List.forall_mem_cons.2 ⟨?_, ih hjs⟩
    rw [Descriptor.slot?] at hi
    split_ifs at hi with hslot
    -- a slot has one digit
    have hsmall : n.natAbs < Mask.slotLimit := by omega
    exact Numeral.isWritable_of_lt (Nat.lt_of_lt_of_le hsmall (by decide))

/-- Slots that are counted as they are given are only looked at one by one. -/
theorem checked_length (number : Int) (name : Text) (available : Bool) (ns : List Int)
    (mask : Mask) :
    Descriptor.checked number name available ns.length ns mask =
      match Descriptor.slots? ns with
      | some is => .ok ⟨number, name, available, is, mask⟩
      | none => .error (.slotsOutOfRange name ns) :=
  if_neg fun h => h rfl

/-- Slots are at fault, if they are, with all their numbers. -/
theorem failsWith_checked_iff {number : Int} {name : Text} {available : Bool} {ns : List Int}
    {mask : Mask} :
    (Run.ofCheck (Descriptor.checked number name available ns.length ns mask)).FailsWith
      Failure.IsConfig ↔ ∀ n ∈ ns, Numeral.isWritable n = true := by
  have hshown : (ConfigFault.slotsOutOfRange name ns).isWritable = ns.all Numeral.isWritable := by
    rw [ConfigFault.isWritable, ConfigFault.obstacle?, Bool.eq_iff_iff, Option.isNone_iff_eq_none,
      List.findSome?_eq_none_iff, List.all_eq_true]
    refine forall₂_congr fun n _ => ?_
    rw [← Option.isNone_iff_eq_none, Scalar.isNone_obstacle?_int]
  rw [checked_length, failsWith_ofCheck_iff]
  cases hslots : Descriptor.slots? ns with
  | some is =>
    refine ⟨fun _ => isWritable_of_slots? hslots, fun _ fault hfault => ?_⟩
    cases hfault
  | none => simp only [Except.error.injEq, forall_eq', hshown, List.all_eq_true]

theorem exists_integers {vs : List Value} (h : ∀ v ∈ vs, IsInteger v) :
    ∃ ns : List Int, vs.map Value.toInt = ns.map Except.ok := by
  induction vs with
  | nil => exact ⟨[], rfl⟩
  | cons v vs ih =>
    obtain ⟨⟨n, hn⟩, hvs⟩ := List.forall_mem_cons.1 h
    obtain ⟨ns, hns⟩ := ih hvs
    exact ⟨n :: ns, by rw [List.map_cons, List.map_cons, hn, hns]⟩

/-- What the slots come to, integer by integer. -/
theorem forall_integers_iff {fault : Cause → ConfigFault} {P : Int → Prop} {vs : List Value} :
    (∀ ns, (integers fault vs).result = .ok ns → ∀ n ∈ ns, P n) ↔
      ((∀ v ∈ vs, IsInteger v) → ∀ v ∈ vs, ∀ n, v.toInt = .ok n → P n) := by
  simp only [result_integers_eq_ok_iff]
  constructor
  · intro h hvs v hv n hn
    obtain ⟨ns, hns⟩ := exists_integers hvs
    have hmem : (.ok n : Except IntFault Int) ∈ ns.map Except.ok := by
      rw [← hns, ← hn]
      exact List.mem_map_of_mem hv
    obtain ⟨n', hn', heq⟩ := List.mem_map.1 hmem
    cases heq
    exact h ns hns n hn'
  · intro h ns hns n hn
    have hvs : ∀ v ∈ vs, IsInteger v := by
      intro v hv
      have hmem : v.toInt ∈ ns.map Except.ok := by
        rw [← hns]
        exact List.mem_map_of_mem hv
      obtain ⟨k, -, hk⟩ := List.mem_map.1 hmem
      exact ⟨k, hk.symm⟩
    have hmem : .ok n ∈ vs.map Value.toInt := by
      rw [hns]
      exact List.mem_map_of_mem hn
    obtain ⟨v, hv, hvn⟩ := List.mem_map.1 hmem
    exact h hvs v hv n hvn

/-- The slots of an entry and their check. -/
theorem failsWith_given_iff {number : Int} {name : Text} {available : Bool} {v : Value}
    {mask : Mask} :
    (slots name v >>= fun ns => Run.ofCheck (Descriptor.checked number name available ns.length ns
      mask)).FailsWith Failure.IsConfig ↔ TellsSlots v := by
  rw [failsWith_bind, TellsSlots, slots]
  simp only [failsWith_checked_iff]
  cases v.elements? with
  | some vs =>
    simp only [Option.some.injEq, forall_eq']
    rw [failsWith_integers_iff fun _ => rfl, forall_integers_iff]
  -- what cannot be gone through is said to be of the wrong kind
  | none =>
    refine ⟨fun _ => nofun, fun _ => ⟨failsWith_fail_config_iff.2 rfl, fun ns h => ?_⟩⟩
    cases h

/-! ## Entries -/

section Parts

variable {e : Entry} {parts : Parts} {n : Int}

def HasNumber (parts : Parts) (n : Int) : Prop := ∃ w, parts.number = some w ∧ w.toInt = .ok n

def HasName (parts : Parts) : Prop := ∃ w, parts.name = some w ∧ w.isWritable = true

/-- An entry without a number is shown, but not if the number is infinite. -/
def TellsNumber (e : Entry) (parts : Parts) : Prop :=
  (∃ n, HasNumber parts n) ∨
    (e.shown.isWritable = true ∧ ∀ w, parts.number = some w → w.toInt ≠ .error .infinite)

/-- An entry without a name is shown, but not if the name is too deep. -/
def TellsName (e : Entry) (parts : Parts) : Prop :=
  HasName parts ∨
    (e.shown.isWritable = true ∧ ∀ w, parts.name = some w → w.obstacle? ≠ some .tooDeep)

def maskOf (parts : Parts) : Value := parts.mask.getD (.int 0)

/-- What is wrong with the parts of an entry can be told: with its number, its name, its mask and
    its slots, one after the other, as long as those before are in order. -/
def TellsParts (e : Entry) (parts : Parts) : Prop :=
  TellsNumber e parts ∧ ((∃ n, HasNumber parts n) → TellsName e parts ∧
    (HasName parts → TellsMask (maskOf parts) ∧
      (HasMask (maskOf parts) → ∀ p, parts.positions = some p → TellsSlots p)))

/-- An entry that is no mapping is shown. -/
def TellsEntry (e : Entry) : Prop :=
  match e.parts with
  | none => e.shown.isWritable = true
  | some parts => TellsParts e parts

theorem result_number_eq_ok_iff : (number e parts).result = .ok n ↔ HasNumber parts n := by
  rw [number, HasNumber]
  cases parts.number with
  | none => exact ⟨nofun, fun ⟨_, h, _⟩ => nomatch h⟩
  | some w =>
    simp only [Option.some.injEq, exists_eq_left']
    cases w.toInt with
    | ok k => exact ⟨fun h => by cases h; rfl, fun h => by cases h; rfl⟩
    | error why => exact ⟨fun h => (by cases why <;> cases h), nofun⟩

theorem failsWith_number_iff :
    (number e parts).FailsWith Failure.IsConfig ↔ TellsNumber e parts := by
  rw [number, TellsNumber]
  simp only [HasNumber]
  cases parts.number with
  | none =>
    refine failsWith_fail_config_iff.trans ⟨fun h => .inr ⟨h, nofun⟩, ?_⟩
    rintro (⟨_, _, h, -⟩ | h)
    · cases h
    · exact h.1
  | some w =>
    simp only [Option.some.injEq, exists_eq_left', forall_eq']
    cases w.toInt with
    | ok n => exact ⟨fun _ => .inl ⟨n, rfl⟩, fun _ => failsWith_pure n⟩
    | error why =>
      have hnone : ¬ ∃ n, (Except.error why : Except IntFault Int) = .ok n :=
        fun ⟨_, h⟩ => nomatch h
      rw [or_iff_right hnone]
      refine (failsWith_noInteger_iff (b := e.shown.isWritable) fun _ => rfl).trans ?_
      rw [and_comm, ne_eq, ne_eq, Except.error.injEq]

theorem exists_name_iff : (∃ t, (name e parts).result = .ok t) ↔ HasName parts := by
  rw [name, HasName]
  cases parts.name with
  | none => exact ⟨nofun, fun ⟨_, h, _⟩ => nomatch h⟩
  | some w =>
    simp only [Option.some.injEq, exists_eq_left', Value.isWritable]
    cases w.obstacle? with
    | none => exact ⟨fun _ => rfl, fun _ => ⟨w.write, rfl⟩⟩
    | some obstacle => exact ⟨fun ⟨_, h⟩ => (by cases obstacle <;> cases h), nofun⟩

theorem failsWith_name_iff :
    (name e parts).FailsWith Failure.IsConfig ↔ TellsName e parts := by
  rw [name, TellsName, HasName]
  cases parts.name with
  | none =>
    refine failsWith_fail_config_iff.trans ⟨fun h => .inr ⟨h, nofun⟩, ?_⟩
    rintro (⟨_, h, -⟩ | h)
    · cases h
    · exact h.1
  | some w =>
    simp only [Option.some.injEq, exists_eq_left', forall_eq', Value.isWritable]
    cases w.obstacle? with
    | none => exact ⟨fun _ => .inl rfl, fun _ => failsWith_pure _⟩
    | some obstacle =>
      cases obstacle with
      | overlong =>
        refine failsWith_fail_config_iff.trans ⟨fun h => .inr ⟨h, nofun⟩, ?_⟩
        rintro (h | h)
        · cases h
        · exact h.1
      | tooDeep =>
        refine ⟨fun h => absurd h (not_failsWith_fail nofun), ?_⟩
        rintro (h | h)
        · cases h
        · exact absurd rfl h.2

/-- The slots of an entry, if it has any of its own, after everything else. -/
def finish (parts : Parts) (n : Int) (t : Text) (ms : Mask) : Run Descriptor :=
  let available := (parts.available.getD (.bool true)).isTrue
  match parts.positions with
  | none => pure (Descriptor.ofMask n t ms available)
  | some p => slots t p >>= fun ns =>
      Run.ofCheck (Descriptor.checked n t available ns.length ns ms)

theorem entry_of_none (h : e.parts = none) :
    entry e = Run.fail (.config (.badEntry e.shown .wrongKind)) := by
  rw [entry, h]

theorem entry_of_parts (h : e.parts = some parts) :
    entry e = number e parts >>= fun n => name e parts >>= fun t =>
      mask (maskOf parts) >>= finish parts n t := by
  rw [entry, h]
  rfl

theorem failsWith_entry_iff : (entry e).FailsWith Failure.IsConfig ↔ TellsEntry e := by
  unfold TellsEntry
  cases hparts : e.parts with
  | none =>
    rw [entry_of_none hparts]
    exact failsWith_fail_config_iff
  | some parts =>
    rw [entry_of_parts hparts, failsWith_bind, failsWith_number_iff]
    simp only [TellsParts]
    refine and_congr_right fun _ => ?_
    rw [forall_exists_index]
    refine forall_congr' fun n => ?_
    rw [result_number_eq_ok_iff, failsWith_bind, failsWith_name_iff, ← exists_name_iff (e := e),
      forall_exists_index]
    refine imp_congr_right fun _ => and_congr_right fun _ => forall_congr' fun t =>
      imp_congr_right fun _ => ?_
    rw [failsWith_bind, failsWith_mask_iff, ← exists_mask_iff, forall_exists_index]
    refine and_congr_right fun _ => forall_congr' fun ms => imp_congr_right fun _ => ?_
    rw [finish]
    cases parts.positions with
    | none => exact ⟨fun _ => nofun, fun _ => failsWith_pure _⟩
    | some p =>
      simp only [Option.some.injEq, forall_eq']
      exact failsWith_given_iff

end Parts

/-! ## Entries in turn -/

/-- What is wrong with entries can be told, up to the first one that is at fault: of the entry
    itself, and of a number that is there already. -/
def TellsEntries (c : Catalog) (es : List Entry) : Prop :=
  ∀ before e after c', es = before ++ e :: after → (addEntries c before).result = .ok c' →
    TellsEntry e ∧ ∀ d, (entry e).result = .ok d → d.number ∈ c'.entries.map Descriptor.number →
      Numeral.isWritable d.number = true

theorem failsWith_add_iff {c : Catalog} {d : Descriptor} :
    (Run.ofCheck (c.add d)).FailsWith Failure.IsConfig ↔
      (d.number ∈ c.entries.map Descriptor.number → Numeral.isWritable d.number = true) := by
  have hshown : (ConfigFault.duplicateNumber d.number).isWritable = Numeral.isWritable d.number :=
    Scalar.isNone_obstacle?_int d.number
  rw [failsWith_ofCheck_iff, Catalog.add]
  split_ifs with h
  · simp only [Except.error.injEq, forall_eq', hshown]
    exact ⟨fun hd _ => hd, fun hd => hd h⟩
  · exact ⟨fun _ hmem => absurd hmem h, fun _ => nofun⟩

theorem tellsEntries_cons {c : Catalog} {e : Entry} {es : List Entry} :
    TellsEntries c (e :: es) ↔ TellsEntry e ∧ ∀ d, (entry e).result = .ok d →
      (d.number ∈ c.entries.map Descriptor.number → Numeral.isWritable d.number = true) ∧
        ∀ c', c.add d = .ok c' → TellsEntries c' es := by
  have hstep {before : List Entry} {c₂ : Catalog} :
      (addEntries c (e :: before)).result = .ok c₂ ↔ ∃ d c₁, (entry e).result = .ok d ∧
        c.add d = .ok c₁ ∧ (addEntries c₁ before).result = .ok c₂ := by
    rw [addEntries]
    constructor
    · intro h
      obtain ⟨d, hd, h⟩ := Run.result_bind_eq_ok h
      obtain ⟨c₁, hadd, h⟩ := Run.result_bind_eq_ok h
      exact ⟨d, c₁, hd, result_ofCheck_eq_ok_iff.1 hadd, h⟩
    · rintro ⟨d, c₁, hd, hadd, h⟩
      rw [Run.result_bind_of_ok hd, Run.result_bind_of_ok (result_ofCheck_eq_ok_iff.2 hadd), h]
  constructor
  · intro h
    obtain ⟨he, hnumber⟩ := h [] e es c rfl rfl
    refine ⟨he, fun d hd => ⟨hnumber d hd, fun c₁ hadd before u after c₂ hes hbefore => ?_⟩⟩
    exact h (e :: before) u after c₂ (by rw [hes]; rfl) (hstep.2 ⟨d, c₁, hd, hadd, hbefore⟩)
  · rintro ⟨he, hrest⟩ before u after c₂ hes hbefore
    cases before with
    | nil =>
      cases hes
      cases hbefore
      exact ⟨he, fun d hd => (hrest d hd).1⟩
    | cons w before =>
      cases hes
      obtain ⟨d, c₁, hd, hadd, hbefore⟩ := hstep.1 hbefore
      exact (hrest d hd).2 c₁ hadd before u after c₂ rfl hbefore

theorem failsWith_addEntries_iff {c : Catalog} {es : List Entry} :
    (addEntries c es).FailsWith Failure.IsConfig ↔ TellsEntries c es := by
  induction es generalizing c with
  | nil =>
    refine ⟨fun _ before e after _ h => ?_, fun _ => failsWith_pure c⟩
    cases before <;> cases h
  | cons e es ih =>
    rw [addEntries, failsWith_bind, failsWith_entry_iff, tellsEntries_cons]
    refine and_congr_right fun _ => forall_congr' fun d => imp_congr_right fun _ => ?_
    rw [failsWith_bind, failsWith_add_iff]
    refine and_congr_right fun _ => forall_congr' fun c' => ?_
    rw [result_ofCheck_eq_ok_iff, ih]

/-! ## Documents -/

variable {platform : Platform} {files : Files} {file : Text} {m : Memory} {root : Item}

theorem result_document_eq_ok_iff {d : Document} :
    (document platform files file).result = .ok d ↔
      platform.load files (Path.ofText file) = .ok d := by
  rw [document]
  cases platform.load files (Path.ofText file) with
  | ok d' => exact ⟨fun h => by cases h; rfl, fun h => by cases h; rfl⟩
  | error fault =>
    refine ⟨fun h => ?_, nofun⟩
    cases fault with
    | os fault => cases fault <;> cases h
    | _ => cases h

theorem failsWith_document_iff :
    (document platform files file).FailsWith Failure.IsConfig ↔
      ∀ fault, platform.load files (Path.ofText file) = .error fault →
        Settings.IsReportedFault fault := by
  rw [document]
  cases platform.load files (Path.ofText file) with
  | ok d =>
    refine ⟨fun _ fault h => ?_, fun _ => failsWith_pure d⟩
    cases h
  | error fault =>
    simp only [Except.error.injEq, forall_eq']
    cases fault with
    | os fault =>
      by_cases hname : fault = .unnameable
      · subst hname
        exact ⟨fun h => absurd h (not_failsWith_fail nofun), fun h => absurd rfl h⟩
      · refine ⟨fun _ => hname, fun _ => ?_⟩
        cases fault <;> first | exact failsWith_fail_config_iff.2 rfl | exact absurd rfl hname
    | malformed => exact ⟨fun _ => trivial, fun _ => failsWith_fail_config_iff.2 rfl⟩
    | notUtf8 | unreadable _ | tooLarge | wrongKind | noSuchKey | tooDeep | other _ =>
      exact ⟨fun h => absurd h (not_failsWith_fail nofun), False.elim⟩

/-- A list that is false has no entries. -/
theorem eq_nil_of_entries? {es : List Entry} (h : entries? m root = some es)
    (hfalse : ¬ (m.layOut root).isTrue = true) : es = [] := by
  cases root with
  | scalar v => cases h
  | ref r =>
    rw [entries?] at h
    rw [Memory.layOut] at hfalse
    rcases ho : m.object? r with _ | items | items | items | entries
    · rw [ho] at h; cases h
    · rw [ho] at h hfalse
      cases h
      cases items with
      | nil => rfl
      | cons i items => exact absurd rfl hfalse
    · rw [ho] at h; cases h
    · rw [ho] at h; cases h
    · rw [ho] at h; cases h

/-- A list is a list of entries, and no other document that is true is taken. -/
theorem catalog_cases (file : Text) (m : Memory) (root : Item) :
    (∃ es, entries? m root = some es ∧ catalog file m root = addEntries .empty es) ∨
      entries? m root = none ∧
        (catalog file m root = Run.fail (.config (.listingNotList file)) ∨
          catalog file m root = pure .empty) := by
  unfold catalog
  cases hes : entries? m root with
  | some es =>
    refine .inl ⟨es, rfl, ?_⟩
    split_ifs with htrue
    · rfl
    · rw [eq_nil_of_entries? hes htrue]
      rfl
  | none =>
    split_ifs
    · exact .inr ⟨rfl, .inl rfl⟩
    · exact .inr ⟨rfl, .inr rfl⟩

theorem failsWith_catalog_iff :
    (catalog file m root).FailsWith Failure.IsConfig ↔
      ∀ es, entries? m root = some es → TellsEntries .empty es := by
  rcases catalog_cases file m root with ⟨es, hes, hcatalog⟩ | ⟨hnone, hcatalog | hcatalog⟩
  · rw [hcatalog, failsWith_addEntries_iff, hes]
    simp only [Option.some.injEq, forall_eq']
  · rw [hcatalog, hnone]
    exact ⟨fun _ => nofun, fun _ => failsWith_fail_config_iff.2 rfl⟩
  · rw [hcatalog, hnone]
    exact ⟨fun _ => nofun, fun _ => failsWith_pure _⟩

/-! ## Other failures -/

/-- What comes of entries that are at fault: that they are, or a value out of range, a value of the
    wrong kind, a number without an end, or a value too deep to be shown. -/
def Surfaces (e : Failure) : Prop :=
  e.IsConfig ∨ (∃ fault, e = .value fault) ∨ e = .wrongKind ∨ e = .tooLarge ∨ e = .tooDeep

section Surfaces

variable {α : Type}

theorem surfaces_ofObstacle (o : Obstacle) : Surfaces (.ofObstacle o) := by
  cases o with
  | overlong => exact .inr (.inl ⟨_, rfl⟩)
  | tooDeep => exact .inr (.inr (.inr (.inr rfl)))

theorem surfaces_fail {e : Failure} (he : Surfaces e) : (Run.fail e : Run α).FailsWith Surfaces :=
  Run.failsWith_fail he surfaces_ofObstacle

theorem surfaces_fault (fault : ConfigFault) :
    (Run.fail (.config fault) : Run α).FailsWith Surfaces :=
  surfaces_fail (.inl ⟨fault, rfl⟩)

theorem surfaces_ofCheck (x : Except ConfigFault α) : (Run.ofCheck x).FailsWith Surfaces := by
  cases x with
  | ok a => exact failsWith_pure a
  | error fault => exact surfaces_fault fault

theorem surfaces_noInteger (fault : Cause → ConfigFault) (e : IntFault) :
    (noInteger fault e : Run α).FailsWith Surfaces := by
  cases e with
  | infinite => exact surfaces_fail (.inr (.inr (.inr (.inl rfl))))
  | wrongKind => exact surfaces_fault _
  | noNumeral => exact surfaces_fault _

end Surfaces

theorem surfaces_flag (v : Value) : (flag v).FailsWith Surfaces := by
  rw [flag]
  cases Mask.flag? v.write with
  | some m => exact failsWith_pure m
  | none => exact surfaces_fault _

theorem surfaces_flags (vs : List Value) : (flags vs).FailsWith Surfaces := by
  induction vs with
  | nil => exact failsWith_pure 0
  | cons v vs ih => exact (surfaces_flag v).bind fun _ => ih.bind fun _ => failsWith_pure _

theorem surfaces_mask (v : Value) : (mask v).FailsWith Surfaces := by
  rcases mask_cases v with ⟨-, hmask⟩ | ⟨-, ⟨-, m, hmask⟩ | hmask | ⟨-, hmask⟩⟩
  · rw [hmask]
    exact surfaces_fail (.inr (.inr (.inl rfl)))
  · rw [hmask]
    exact failsWith_pure m
  · rw [hmask]
    exact surfaces_flags _
  · rw [hmask]
    exact surfaces_flag v

theorem surfaces_integers (fault : Cause → ConfigFault) (vs : List Value) :
    (integers fault vs).FailsWith Surfaces := by
  induction vs with
  | nil => exact failsWith_pure []
  | cons v vs ih =>
    rw [integers]
    cases v.toInt with
    | error e => exact surfaces_noInteger fault e
    | ok n => exact ih.bind fun _ => failsWith_pure _

theorem surfaces_slots (name : Text) (v : Value) : (slots name v).FailsWith Surfaces := by
  rw [slots]
  cases v.elements? with
  | some vs => exact surfaces_integers _ vs
  | none => exact surfaces_fault _

theorem surfaces_number (e : Entry) (parts : Parts) : (number e parts).FailsWith Surfaces := by
  rw [number]
  cases parts.number with
  | none => exact surfaces_fault _
  | some w =>
    simp only
    cases w.toInt with
    | ok n => exact failsWith_pure n
    | error why => exact surfaces_noInteger _ why

theorem surfaces_name (e : Entry) (parts : Parts) : (name e parts).FailsWith Surfaces := by
  rw [name]
  cases parts.name with
  | none => exact surfaces_fault _
  | some w =>
    simp only
    rcases w.obstacle? with _ | _ | _
    · exact failsWith_pure _
    · exact surfaces_fault _
    · exact surfaces_fail (.inr (.inr (.inr (.inr rfl))))

theorem surfaces_entry (e : Entry) : (entry e).FailsWith Surfaces := by
  cases hparts : e.parts with
  | none =>
    rw [entry_of_none hparts]
    exact surfaces_fault _
  | some parts =>
    rw [entry_of_parts hparts]
    refine (surfaces_number e parts).bind fun n => (surfaces_name e parts).bind fun t =>
      (surfaces_mask _).bind fun ms => ?_
    rw [finish]
    cases parts.positions with
    | none => exact failsWith_pure _
    | some p => exact (surfaces_slots t p).bind fun _ => surfaces_ofCheck _

theorem surfaces_addEntries (c : Catalog) (es : List Entry) :
    (addEntries c es).FailsWith Surfaces := by
  induction es generalizing c with
  | nil => exact failsWith_pure c
  | cons e es ih =>
    exact (surfaces_entry e).bind fun d => (surfaces_ofCheck _).bind fun c' => ih c'

theorem surfaces_catalog (file : Text) (m : Memory) (root : Item) :
    (catalog file m root).FailsWith Surfaces := by
  rcases catalog_cases file m root with ⟨es, -, hcatalog⟩ | ⟨-, hcatalog | hcatalog⟩
  · rw [hcatalog]
    exact surfaces_addEntries _ es
  · rw [hcatalog]
    exact surfaces_fault _
  · rw [hcatalog]
    exact failsWith_pure _

/-- A document is not there because it is at fault, or because of what the reader ran into. -/
theorem document_failsWith : (document platform files file).FailsWith fun e => Surfaces e ∨
    ∃ fault, platform.load files (Path.ofText file) = .error fault ∧
      e = fault.failure.told := by
  rw [document]
  cases hload : platform.load files (Path.ofText file) with
  | ok d => exact failsWith_pure d
  | error fault =>
    have hsurfaces {e : Failure} (he : Surfaces e) : (Run.fail e : Run Document).FailsWith
        fun e => Surfaces e ∨ ∃ fault', Except.error (α := Document) fault = .error fault' ∧
          e = fault'.failure.told :=
      (surfaces_fail he).mono fun _ => .inl
    cases fault with
    | os fault =>
      cases fault <;>
        first
        | exact hsurfaces (.inl ⟨_, rfl⟩)
        | exact hsurfaces (.inr (.inl ⟨_, rfl⟩))
    | malformed => exact hsurfaces (.inl ⟨_, rfl⟩)
    | _ =>
      intro e he
      exact .inr ⟨_, rfl, (Except.error.inj he).symm⟩

/-! ## Files -/

/-- The last step: the catalog is recorded, with the number of its calls. -/
def recorded (file : Text) (c : Catalog) : Run Catalog := do
  Run.record Log.Level.info Log.Source.syscalls (("Loaded " : Text) ++ Numeral.decimal c.size
    ++ (" syscalls from " : Text) ++ file)
  pure c

theorem failsWith_recorded {P : Failure → Prop} (file : Text) (c : Catalog) :
    (recorded file c).FailsWith P :=
  (failsWith_record _ _ _).bind fun _ => failsWith_pure c

theorem load_eq_recorded (platform : Platform) (files : Files) (file : Text) :
    load platform files file = document platform files file >>= fun d =>
      catalog file (d.memory platform.depths) d.root >>= recorded file := rfl

/-- The file is read as a list of these entries. -/
def Lists (platform : Platform) (files : Files) (file : Text) (es : List Entry) : Prop :=
  ∃ d, platform.load files (Path.ofText file) = .ok d ∧
    entries? (d.memory platform.depths) d.root = some es

/-- What is wrong with a file of system calls is a fault in the listing, unless the reader runs into
    something that is not reported, or an entry that is reached has a number without an end,
    something that is no mask, or something at fault that cannot be shown.  Of other failures there
    are only those of values and numbers, and those of the reader: no key is missed but by that. -/
theorem load_settled (platform : Platform) (files : Files) (file : Text) :
    ((load platform files file).FailsWith Failure.IsConfig ↔
      (∀ fault, platform.load files (Path.ofText file) = .error fault →
        Settings.IsReportedFault fault) ∧
      ∀ es, Lists platform files file es → TellsEntries .empty es) ∧
    (load platform files file).FailsWith fun e => Surfaces e ∨
      ∃ fault, platform.load files (Path.ofText file) = .error fault ∧
        e = fault.failure.told := by
  rw [load_eq_recorded]
  constructor
  · rw [failsWith_bind, failsWith_document_iff]
    refine and_congr_right fun _ => ?_
    have hcatalog (d : Document) : (catalog file (d.memory platform.depths) d.root >>=
        recorded file).FailsWith Failure.IsConfig ↔
          ∀ es, entries? (d.memory platform.depths) d.root = some es →
            TellsEntries .empty es := by
      rw [failsWith_bind, failsWith_catalog_iff]
      exact and_iff_left fun c _ => failsWith_recorded file c
    simp only [result_document_eq_ok_iff, hcatalog]
    exact ⟨fun h es ⟨d, hd, hes⟩ => h d hd es hes, fun h d hd es hes => h es ⟨d, hd, hes⟩⟩
  · refine document_failsWith.bind fun d => ?_
    exact ((surfaces_catalog file _ _).bind (failsWith_recorded file)).mono fun _ => .inl

/-- A directory with one listing. -/
def listingFile (bytes : List UInt8) : Files where
  nodes := [(["catalog.yaml"], .file bytes)]
  home := []

/-- A number without an end, a fraction for a mask, bytes that are no text and a date that
    there is not: none of these is said to be a fault in the listing. -/
theorem load_escaping :
    (load Yaml.platform (listingFile (Text.Utf8.encode "- number: .inf\n  name: a\n"))
        "catalog.yaml").result matches .error .tooLarge ∧
      (load Yaml.platform (listingFile (Text.Utf8.encode
        "- number: 1\n  name: a\n  mask: 1.5\n")) "catalog.yaml").result
        matches .error .wrongKind ∧
      (load Yaml.platform (listingFile [0xff]) "catalog.yaml").result matches .error .notUtf8 ∧
      (load Yaml.platform (listingFile (Text.Utf8.encode "- name: 2024-02-30\n"))
        "catalog.yaml").result matches .error (.value _) := by
  decide +kernel

end Tracewright.Listing
