/-
  Tracewright.Proofs.Program.Handler

  What the handler of a system call depends on: the number, the name and the
  strings that are captured, and of a mode the features and the policy.  A
  call with more strings gets the handler of a call with those that are
  captured, and a warning.

    * `Handler.made`       — a handler, apart from the choice of its kind.
    * `Handler.select_eq`  — the choice tells at most the warning.
    * `Handler.made_congr`, `Handler.made_congr_of_isLifecycle`
                           — what the handler is made of.
    * `Handler.select_determined`
                           — these facts for any directory of fragments.
-/
import Tracewright.Proofs.Fragment.Check
import Tracewright.Proofs.Log.Told
import Tracewright.Proofs.Program.Assembly

namespace Tracewright

open Run (Quiet quiet_complaint quiet_decimal quiet_detail quiet_fail quiet_ofExcept quiet_pure)

/-! ## Quiet steps -/

theorem Store.quiet_loadVerbatim (s : Store) (name : Text) : (s.loadVerbatim name).Quiet := by
  rw [loadVerbatim]
  -- a file that cannot be read, bytes that are no text, and a fragment
  split
  · exact quiet_fail _
  · exact quiet_complaint _ _ _
  · split
    · exact quiet_complaint _ _ _
    · exact (quiet_detail _ _).bind fun _ _ => quiet_pure _

theorem Buffer.quiet_missing {α : Type} (b : Buffer) (word : Text) :
    (b.missing word : Run α).Quiet :=
  (quiet_detail _ _).bind fun _ _ => quiet_fail _

theorem Buffer.quiet_replaceFirst (b : Buffer) (word r : Text) :
    (b.replaceFirst word r).Quiet := by
  rw [replaceFirst]
  split
  · exact quiet_pure _
  · exact b.quiet_missing word

/-- Every fragment of a source is taken quietly. -/
def Source.IsQuiet (source : Source Run) : Prop := ∀ name, (source.loadVerbatim name).Quiet

theorem Source.IsQuiet.load {source : Source Run} (h : source.IsQuiet) (name : Text) :
    (source.load name).Quiet :=
  (h name).bind fun _ _ => quiet_pure _

theorem Store.isQuiet_source (s : Store) : s.source.IsQuiet := s.quiet_loadVerbatim

/-! ## Kinds -/

/-- The names of the calls that start or end processes. -/
def lifecycleNames : List Text := ["fork", "vfork", "clone", "exit", "exit_group"]

namespace Descriptor

/-- The call starts or ends a process, and the full features are on. -/
def isLifecycle (d : Descriptor) (m : Mode) : Bool :=
  m.fullFeature.isTrue && lifecycleNames.contains d.name

/-- More strings than can be captured. -/
def clampWarning (d : Descriptor) : Log.Record :=
  ⟨Log.Level.warning, Log.Source.handler, ("syscall '" : Text) ++ d.name ++
    ("' has more than 3 string arguments, only first 3 of them will be printed" : Text)⟩

/-- The warnings that the choice of a handler comes with. -/
def clampWarnings (d : Descriptor) (m : Mode) : List Log.Record :=
  if !d.isLifecycle m && decide (captureLimit < d.strings) then [d.clampWarning] else []

/-- The call with the strings that can be captured. -/
def clamp (d : Descriptor) : Descriptor := { d with slots := d.slots.take captureLimit }

variable {d d' : Descriptor} {m m' : Mode}

theorem isLifecycle_eq_or (d : Descriptor) (m : Mode) : d.isLifecycle m =
    (m.fullFeature.isTrue && forkNames.contains d.name ||
      m.fullFeature.isTrue && exitNames.contains d.name) := by
  have hnames : lifecycleNames = forkNames ++ exitNames := rfl
  have hcontains : lifecycleNames.contains d.name =
      (forkNames.contains d.name || exitNames.contains d.name) := by
    rw [hnames, Bool.eq_iff_iff]
    simp
  rw [isLifecycle, hcontains, Bool.and_or_distrib_left]

/-- The kind of a call that starts or ends no process, or of any call without the full
    features. -/
theorem kind_of_not_isLifecycle (h : d.isLifecycle m = false) :
    Outline.kind d m = .general (min d.strings captureLimit) := by
  rw [isLifecycle_eq_or, Bool.or_eq_false_iff] at h
  rw [Outline.kind, h.1, h.2]
  rfl

theorem kind_of_isLifecycle (h : d.isLifecycle m = true) :
    Outline.kind d m =
      if m.fullFeature.isTrue && forkNames.contains d.name then .fork else .exit := by
  rw [isLifecycle_eq_or, Bool.or_eq_true] at h
  rw [Outline.kind]
  by_cases hfork : (m.fullFeature.isTrue && forkNames.contains d.name) = true
  · rw [if_pos hfork, if_pos hfork]
  · rw [if_neg hfork, if_neg hfork, if_pos (h.resolve_left hfork)]

/-- Choosing a kind never fails, and it warns of strings that are left out. -/
theorem case_eq (d : Descriptor) (m : Mode) :
    d.case m = ⟨d.clampWarnings m, .ok (Outline.kind d m)⟩ := by
  have hkind := Outline.result_case d m
  have hlog : (d.case m).log = d.clampWarnings m := by
    rw [case, clampWarnings, isLifecycle_eq_or]
    cases hfork : m.fullFeature.isTrue && forkNames.contains d.name with
    | true => rfl
    | false =>
      cases hexit : m.fullFeature.isTrue && exitNames.contains d.name with
      | true => rfl
      | false =>
        -- neither of the two kinds: the strings decide
        rw [countCase]
        by_cases hstrings : captureLimit < d.strings
        · rw [if_neg Bool.false_ne_true, if_neg Bool.false_ne_true, if_pos hstrings,
            decide_eq_true hstrings, clampWarning]
          show [_] = [_]
          simp only [List.append_assoc]
          rfl
        · rw [if_neg Bool.false_ne_true, if_neg Bool.false_ne_true, if_neg hstrings,
            decide_eq_false hstrings]
          rfl
  rw [← hkind, ← hlog]

theorem clampWarnings_of_le (h : d.strings ≤ captureLimit) (m : Mode) :
    d.clampWarnings m = [] := by
  have hnot : ¬ captureLimit < d.strings := Nat.not_lt.2 h
  rw [clampWarnings, decide_eq_false hnot, Bool.and_false]
  rfl

theorem strings_clamp_le (d : Descriptor) : d.clamp.strings ≤ captureLimit :=
  List.length_take_le _ _

end Descriptor

namespace Handler

open Outline (kind)

variable {source : Source Run} {d d' : Descriptor} {m m' : Mode}

/-! ## Handlers of a kind -/

theorem quiet_fillSlots (b : Buffer) (pairs : List (Fin captureLimit × Fin Mask.slotLimit)) :
    (fillSlots b pairs).Quiet := by
  induction pairs generalizing b with
  | nil => exact quiet_pure b
  | cons p pairs ih =>
    refine Quiet.bind ?_ fun b _ => ih b
    rw [Buffer.putChar]
    split_ifs
    · exact b.quiet_replaceFirst _ _
    · exact quiet_fail _

theorem quiet_complete (d : Descriptor) (case : Case) (b : Buffer) :
    (complete d case b).Quiet :=
  (quiet_decimal _).bind fun _ _ => (quiet_detail _ _).bind fun _ _ => quiet_pure _

theorem quiet_fragment (h : source.IsQuiet) (d : Descriptor) (m : Mode) (case : Case) :
    (fragment source d m case).Quiet := by
  cases case with
  | fork => exact h.load _
  | exit => exact h.load _
  | general count =>
    exact (quiet_ofExcept _).bind fun file _ => (h.load file).bind fun b _ =>
      quiet_fillSlots b (slotPairs d count)

/-- The handler of a call, once its kind has been chosen. -/
def made (source : Source Run) (d : Descriptor) (m : Mode) : Run Buffer :=
  fragment source d m (kind d m) >>= complete d (kind d m)

theorem quiet_made (h : source.IsQuiet) (d : Descriptor) (m : Mode) : (made source d m).Quiet :=
  (quiet_fragment h d m _).bind fun b _ => quiet_complete d _ b

theorem select_eq (source : Source Run) (d : Descriptor) (m : Mode) :
    select source d m =
      ⟨d.clampWarnings m ++ (made source d m).log, (made source d m).result⟩ := by
  have hcase : (d.case m).result = .ok (kind d m) := Outline.result_case d m
  show (d.case m >>= fun case => fragment source d m case >>= complete d case) = _
  rw [Run.bind_of_ok hcase, Descriptor.case_eq]
  rfl

/-- The warnings of a choice are those of strings that are left out. -/
theorem warnings_select (h : source.IsQuiet) (d : Descriptor) (m : Mode) :
    (select source d m).log.filter (fun r => r.level = Log.Level.warning) =
      d.clampWarnings m := by
  have hmade : (made source d m).log.filter (fun r => r.level = Log.Level.warning) = [] := by
    rw [List.filter_eq_nil_iff]
    intro r hr
    rcases quiet_made h d m r hr with hlevel | ⟨hlevel, -⟩
    · rw [hlevel]
      decide
    · rw [hlevel]
      decide
  have hclamp : (d.clampWarnings m).filter (fun r => r.level = Log.Level.warning) =
      d.clampWarnings m := by
    rw [Descriptor.clampWarnings]
    split_ifs
    · rfl
    · rfl
  rw [select_eq, List.filter_append, hmade, hclamp, List.append_nil]

/-! ## What they are made of -/

/-- The strings that are captured are as many in two calls that have the same of them. -/
theorem kind_congr (hname : d'.name = d.name)
    (hslots : d'.slots.take captureLimit = d.slots.take captureLimit)
    (hfull : m'.fullFeature.isTrue = m.fullFeature.isTrue) : kind d' m' = kind d m := by
  have hcount : min d'.strings captureLimit = min d.strings captureLimit := by
    have hlength := congrArg List.length hslots
    rw [List.length_take, List.length_take] at hlength
    rw [Descriptor.strings, Descriptor.strings, Nat.min_comm, hlength, Nat.min_comm]
  rw [kind, hfull, hname, hcount, kind]

/-- No slot behind those that are captured is ever filled in. -/
theorem slotPairs_congr (hslots : d'.slots.take captureLimit = d.slots.take captureLimit)
    {count : Nat} (hcount : count ≤ captureLimit) : slotPairs d' count = slotPairs d count := by
  have htake (e : Descriptor) : e.slots.take count = (e.slots.take captureLimit).take count := by
    rw [List.take_take, Nat.min_eq_left hcount]
  rw [slotPairs, htake d', hslots, ← htake d, slotPairs]

theorem complete_congr (hnumber : d'.number = d.number) (hname : d'.name = d.name) (case : Case) :
    complete d' case = complete d case := by
  funext b
  rw [complete, hnumber, hname, complete]

/-- A handler is made of the number, the name and the strings that are captured, under the
    features and the policy of a mode. -/
theorem made_congr (source : Source Run) (hnumber : d'.number = d.number)
    (hname : d'.name = d.name)
    (hslots : d'.slots.take captureLimit = d.slots.take captureLimit)
    (hfull : m'.fullFeature.isTrue = m.fullFeature.isTrue) (hpolicy : m'.policy = m.policy) :
    made source d' m' = made source d m := by
  have hfragment : fragment source d' m' (kind d m) = fragment source d m (kind d m) := by
    cases hkind : kind d m with
    | fork => rfl
    | exit => rfl
    | general count =>
      have hcount : count ≤ captureLimit := by
        have hle := (Outline.slotCount_le d m).2
        rwa [Outline.slotCount, hkind] at hle
      rw [fragment, hpolicy, slotPairs_congr hslots hcount, fragment]
  rw [made, kind_congr hname hslots hfull, hfragment, complete_congr hnumber hname, made]

/-- The handler of a call that starts or ends a process depends on the number and the name
    only. -/
theorem made_congr_of_isLifecycle (source : Source Run) (h : d.isLifecycle m = true)
    (hnumber : d'.number = d.number) (hname : d'.name = d.name)
    (hfull : m'.fullFeature.isTrue = m.fullFeature.isTrue) :
    made source d' m' = made source d m := by
  have h' : d'.isLifecycle m' = true := by
    rwa [Descriptor.isLifecycle, hfull, hname, ← Descriptor.isLifecycle]
  have hkind : kind d' m' = kind d m := by
    rw [Descriptor.kind_of_isLifecycle h', hfull, hname, Descriptor.kind_of_isLifecycle h]
  have hfragment : fragment source d' m' (kind d m) = fragment source d m (kind d m) := by
    -- neither of the two fragments has a place for a string
    rw [Descriptor.kind_of_isLifecycle h]
    split_ifs
    · rfl
    · rfl
  rw [made, hkind, hfragment, complete_congr hnumber hname, made]

/-- Any other handler is the one that is listed for its strings, filled in. -/
theorem result_made_of_not_isLifecycle (source : Source Run) (h : d.isLifecycle m = false) :
    (made source d m).result =
      match source.index.handler? ((min d.strings captureLimit : Nat), m.policy) with
      | none => .error (.noHandler (.int (min d.strings captureLimit : Nat)) m.policy)
      | some file => (source.load file >>= fun b =>
          fillSlots b (slotPairs d (min d.strings captureLimit)) >>=
            complete d (.general (min d.strings captureLimit))).result := by
  rw [made, Descriptor.kind_of_not_isLifecycle h, fragment, Index.handler_int]
  cases source.index.handler? ((min d.strings captureLimit : Nat), m.policy) with
  | none => rfl
  | some file =>
    show ((source.load file >>= fun b => fillSlots b _) >>= _).result = _
    rw [bind_assoc]

/-! ## Handlers of a directory -/

/-- What the handler of a call depends on, whatever the fragments are and however the choice
    ends: the number, the name and the strings that are captured; the features and the policy.
    With more strings a call gets the handler of the call with those that are captured, and a
    single warning, which no other call gets.  With the full features on, calls that start or
    end processes depend on the number and the name only; with the features off, they are
    calls like any other, with the handler that is listed for their strings. -/
theorem select_determined (s : Store) (d : Descriptor) (m : Mode) :
    (∀ (d' : Descriptor) (m' : Mode), d'.number = d.number → d'.name = d.name →
      d'.slots.take captureLimit = d.slots.take captureLimit →
      m'.fullFeature.isTrue = m.fullFeature.isTrue → m'.policy = m.policy →
        (select s.source d' m').result = (select s.source d m).result) ∧
    (d.isLifecycle m = false → captureLimit < d.strings →
      (select s.source d m).result = (select s.source d.clamp m).result ∧
      (select s.source d m).log = d.clampWarning :: (select s.source d.clamp m).log ∧
      (select s.source d m).log.filter (fun r => r.level = Log.Level.warning) =
        [d.clampWarning]) ∧
    (d.strings ≤ captureLimit →
      ∀ r ∈ (select s.source d m).log, r.level ≠ Log.Level.warning) ∧
    (d.isLifecycle m = true →
      (∀ (d' : Descriptor) (m' : Mode), d'.number = d.number → d'.name = d.name →
        m'.fullFeature.isTrue = m.fullFeature.isTrue →
          (select s.source d' m').result = (select s.source d m).result) ∧
      ∀ r ∈ (select s.source d m).log, r.level ≠ Log.Level.warning) ∧
    (d.isLifecycle m = false →
      (select s.source d m).result =
        match s.index.handler? ((min d.strings captureLimit : Nat), m.policy) with
        | none => .error (.noHandler (.int (min d.strings captureLimit : Nat)) m.policy)
        | some file => (s.load file >>= fun b =>
            fillSlots b (slotPairs d (min d.strings captureLimit)) >>=
              complete d (.general (min d.strings captureLimit))).result) := by
  have hwarnings := warnings_select s.isQuiet_source d m
  -- without warnings in the filter there are none in the log
  have hnone (h : d.clampWarnings m = []) :
      ∀ r ∈ (select s.source d m).log, r.level ≠ Log.Level.warning := by
    intro r hr hlevel
    rw [h, List.filter_eq_nil_iff] at hwarnings
    exact hwarnings r hr (decide_eq_true hlevel)
  refine ⟨fun d' m' hnumber hname hslots hfull hpolicy => ?_, fun hordinary hmany => ?_,
    fun hfew => hnone (Descriptor.clampWarnings_of_le hfew m), fun hlifecycle => ⟨?_, hnone ?_⟩,
    fun hordinary => ?_⟩
  · rw [select_eq, select_eq, made_congr _ hnumber hname hslots hfull hpolicy]
  · -- a clamped descriptor has the same slots as far as they are taken, and nothing to warn of
    have hclamp : d.clampWarnings m = [d.clampWarning] := by
      rw [Descriptor.clampWarnings, hordinary, decide_eq_true hmany]
      rfl
    have hslots : d.clamp.slots.take captureLimit = d.slots.take captureLimit := by
      rw [Descriptor.clamp, List.take_take, Nat.min_self]
    have hmade : made s.source d.clamp m = made s.source d m :=
      made_congr s.source rfl rfl hslots rfl rfl
    rw [hclamp] at hwarnings
    refine ⟨?_, ?_, hwarnings⟩
    · rw [select_eq, select_eq, hmade]
    · rw [select_eq, select_eq, hmade, hclamp,
        Descriptor.clampWarnings_of_le d.strings_clamp_le]
      rfl
  · intro d' m' hnumber hname hfull
    rw [select_eq, select_eq, made_congr_of_isLifecycle _ hlifecycle hnumber hname hfull]
  · rw [Descriptor.clampWarnings, hlifecycle]
    rfl
  · rw [select_eq]
    exact result_made_of_not_isLifecycle s.source hordinary

/-- A call with four strings and the name of one that starts processes, with the features off and
    on, and a directory without handlers. -/
theorem select_determined_fork :
    let d : Descriptor := ⟨7, "fork", true, [3, 2, 1, 0], 15⟩
    let off : Mode := {}
    let on : Mode := { fullFeature := .int 1 }
    (select Store.packaged.source { d with slots := [3, 2, 1], mask := 2 } off).result =
        (select Store.packaged.source d off).result ∧
      (select Store.packaged.source d off).log.filter (fun r => r.level = Log.Level.warning) =
        [d.clampWarning] ∧
      (∀ r ∈ (select Store.packaged.source d.clamp off).log, r.level ≠ Log.Level.warning) ∧
      (select Store.packaged.source { d with slots := [] } { on with policy := .full }).result =
        (select Store.packaged.source d on).result ∧
      (select { Store.packaged with index := { handlers := [] } }.source d off).result =
        .error (.noHandler (.int 3) .fixed) := by
  intro d off on
  obtain ⟨hsame, hmany, -, -, -⟩ := select_determined Store.packaged d off
  obtain ⟨-, -, hfew, -, -⟩ := select_determined Store.packaged d.clamp off
  obtain ⟨-, -, -, hlifecycle, -⟩ := select_determined Store.packaged d on
  obtain ⟨-, -, -, -, hlisted⟩ :=
    select_determined { Store.packaged with index := { handlers := [] } } d off
  exact ⟨hsame { d with slots := [3, 2, 1], mask := 2 } off rfl rfl rfl rfl rfl,
    (hmany (by decide) (by decide)).2.2, hfew (by decide),
    (hlifecycle (by decide)).1 { d with slots := [] } { on with policy := .full } rfl rfl rfl,
    hlisted (by decide)⟩

end Handler

end Tracewright
