/-
  Tracewright.Proofs.Program.Faults

  Where the failures of a generation come from: the files of the index, the
  table of the handlers, and what has nothing to do with fragments.

    * `Origin`             — where a failure comes from.
    * `originates_generate` — every failure of a generation has an origin.
    * `generate_of_check`  — what the check of a directory promises.
-/
import Tracewright.Program.Attach
import Tracewright.Proofs.Fragment.Check
import Tracewright.Proofs.Program.Assembly

namespace Tracewright

/-- The failure is about a fragment: one that cannot be read, or that is not listed. -/
def Failure.isOfFragment : Failure → Bool
  | .fragmentUnreadable _ _ | .noHandler _ _ => true
  | _ => false

namespace Run

variable {α β : Type} {x : Run α}

/-! ## Steps that take no fragments -/

/-- Every failure of a run has nothing to do with fragments. -/
abbrev Spares (x : Run α) : Prop := x.FailsWith fun e => e.isOfFragment = false

theorem spares_fail {e : Failure} (he : e.isOfFragment = false) : Spares (fail e : Run α) :=
  failsWith_fail he fun o => by cases o <;> rfl

theorem spares_decimal (n : Int) : Spares (decimal n) := by
  refine failsWith_decimal ?_ n
  rfl

theorem spares_record (level : Log.Level) (source message : Text) :
    Spares (record level source message) := by
  intro e h
  cases h

theorem spares_missing (b : Buffer) (word : Text) : Spares (b.missing word : Run α) :=
  (spares_record _ _ _).bind fun _ => spares_fail rfl

theorem spares_replaceFirst (b : Buffer) (word r : Text) : Spares (b.replaceFirst word r) := by
  rw [Buffer.replaceFirst]
  split
  · exact failsWith_pure _
  · exact spares_missing b word

theorem spares_fillSlots (b : Buffer) (pairs : List (Fin captureLimit × Fin Mask.slotLimit)) :
    Spares (Handler.fillSlots b pairs) := by
  induction pairs generalizing b with
  | nil => exact failsWith_pure b
  | cons p pairs ih =>
    refine FailsWith.bind ?_ fun b => ih b
    rw [Buffer.putChar]
    split_ifs
    · exact spares_replaceFirst b _ _
    · exact spares_fail rfl

theorem spares_complete (d : Descriptor) (case : Case) (b : Buffer) :
    Spares (Handler.complete d case b) :=
  (spares_decimal _).bind fun _ => (spares_record _ _ _).bind fun _ => failsWith_pure _

theorem spares_resolve (expression : Option Text) : Spares (Selection.resolve expression) := by
  intro e he
  rw [Selection.result_resolve] at he
  split at he <;> cases he
  rfl

theorem spares_tellTraced (pid : Int) : Spares (Attach.tellTraced pid) :=
  (spares_decimal _).bind fun _ => (spares_record _ _ _).bind fun _ => failsWith_pure _

theorem spares_tellOwn (own : Int) : Spares (Attach.tellOwn own) :=
  (spares_decimal _).bind fun _ => (spares_record _ _ _).bind fun _ => failsWith_pure _

theorem spares_fillPid (marker : Marker) (numeral : Text) (b : Buffer) :
    Spares (Attach.fillPid marker numeral b) := by
  refine FailsWith.bind ?_ fun _ => failsWith_pure _
  rw [Attach.require]
  split_ifs
  · exact spares_fail rfl
  · exact failsWith_pure _

theorem spares_repeatBlock (b : Buffer) (word block : Text) (count : Int) :
    Spares (b.repeatBlock word block count) := by
  rw [Buffer.repeatBlock]
  split_ifs
  · exact spares_fail rfl
  · exact spares_fail rfl
  · exact spares_fail rfl
  · split
    · exact failsWith_pure _
    · exact spares_missing b word

theorem spares_finish (text : Text) : Spares (Attach.finish text) := by
  rw [Attach.finish]
  split
  · exact failsWith_pure _
  · exact (spares_record _ _ _).bind fun _ => spares_fail rfl

end Run

/-! ## Origins -/

/-- Where a failure of a generation comes from. -/
inductive Origin (source : Source Run) (m : Mode) (e : Failure) : Prop where
  /-- A file of the index could not be loaded. -/
  | load (name : Text) (hname : name ∈ source.index.allFiles)
      (h : (source.loadVerbatim name).result = .error e)
  /-- No handler is listed for a number of strings that can be captured. -/
  | handler (count : Nat) (hcount : count ≤ captureLimit)
      (hnone : source.index.handler? (count, m.policy) = none)
      (he : e = .noHandler (.int count) m.policy)
  /-- It has nothing to do with fragments. -/
  | other (h : e.isOfFragment = false)

variable {source : Source Run} {m : Mode}

namespace Run

/-- Every failure of a run has an origin. -/
abbrev Originates {α : Type} (source : Source Run) (m : Mode) (x : Run α) : Prop :=
  x.FailsWith (Origin source m)

theorem Spares.originates {α : Type} {x : Run α} (h : x.Spares) : x.Originates source m :=
  FailsWith.mono h fun _ => .other

theorem originates_pure {α : Type} (a : α) : Originates source m (pure a : Run α) :=
  failsWith_pure a

theorem originates_loadVerbatim {name : Text} (h : name ∈ source.index.allFiles) :
    (source.loadVerbatim name).Originates source m :=
  fun _ => .load name h

theorem originates_load {name : Text} (h : name ∈ source.index.allFiles) :
    (source.load name).Originates source m :=
  (originates_loadVerbatim h).bind fun _ => originates_pure _

theorem originates_load_fixed {name : Text} (h : name ∈ source.index.fixedFiles) :
    (source.load name).Originates source m :=
  originates_load (Index.mem_allFiles_of_fixed h)

end Run

/-! ## What every step of a generation fails with -/

open Run (originates_pure originates_load originates_load_fixed originates_loadVerbatim)

/-- No more strings are asked for than can be captured. -/
theorem Descriptor.le_of_case {d : Descriptor} {count : Nat}
    (h : (d.case m).result = .ok (.general count)) : count ≤ captureLimit := by
  have hle := (Outline.slotCount_le d m).2
  rw [Outline.result_case, Except.ok.injEq] at h
  rwa [Outline.slotCount, h] at hle

namespace Handler

theorem originates_fragment (d : Descriptor) {case : Case}
    (hcase : (d.case m).result = .ok case) : (fragment source d m case).Originates source m := by
  cases case with
  | fork => exact originates_load_fixed (by simp [Index.fixedFiles])
  | exit => exact originates_load_fixed (by simp [Index.fixedFiles])
  | general count =>
    rw [fragment, Index.handler_int]
    cases hhandler : source.index.handler? (count, m.policy) with
    | none =>
      intro e he
      cases he
      exact .handler count (Descriptor.le_of_case hcase) hhandler rfl
    | some file =>
      -- a handler that is found is on the list of files
      have hfile : file ∈ source.index.allFiles := Index.mem_allFiles.2 (.inr ⟨_, hhandler⟩)
      refine Run.failsWith_bind.2 ⟨originates_pure file, fun file' hfound => ?_⟩
      cases hfound
      exact (originates_load hfile).bind fun b => (Run.spares_fillSlots b _).originates

theorem originates_select (d : Descriptor) : (select source d m).Originates source m := by
  refine Run.failsWith_bind.2 ⟨fun e he => ?_, fun case hcase => ?_⟩
  · exact nomatch (Outline.result_case d m).symm.trans he
  · exact (originates_fragment d hcase).bind fun b => (Run.spares_complete d case b).originates

end Handler

namespace Assembly

theorem originates_definitions : (definitions source m).Originates source m :=
  (originates_load_fixed (by simp [Index.fixedFiles])).bind
    fun _ => originates_pure _

theorem originates_head : (head source m).Originates source m :=
  (originates_loadVerbatim (Index.mem_allFiles_of_fixed (by simp [Index.fixedFiles]))).bind
    fun b => originates_definitions.bind fun defs =>
      (Run.spares_replaceFirst b _ defs.text).originates.bind fun _ => originates_pure _

/-- What is told of a handler that fails changes nothing about its failure. -/
theorem originates_handler (d : Descriptor) : (handler source m d).Originates source m := by
  have hselect : (handler source m d).result =
      (Handler.select source d m >>= fun b => pure b.text).result := by
    rw [result_handler, Run.result_bind]
    cases (Handler.select source d m).result <;> rfl
  exact (Run.failsWith_of_result hselect).2
    ((Handler.originates_select d).bind fun _ => originates_pure _)

theorem originates_exitHandler : (exitHandler source).Originates source m :=
  (originates_load_fixed (by simp [Index.fixedFiles])).bind
    fun _ => originates_pure _

theorem originates_pieces (s : Selection) (ds : List Descriptor) :
    ∀ piece ∈ pieces source m s ds, piece.Originates source m := by
  intro piece hpiece
  rw [pieces, List.mem_append, List.mem_cons, handlers, List.mem_map, tracepoints] at hpiece
  rcases hpiece with (rfl | ⟨d, -, rfl⟩) | hpiece
  · exact originates_head
  · exact originates_handler d
  · split_ifs at hpiece
    · rw [List.mem_singleton.1 hpiece]
      exact originates_exitHandler
    · exact absurd hpiece List.not_mem_nil

theorem originates_assemble (c : Catalog) : (assemble source c m).Originates source m :=
  (Run.spares_resolve m.expression).originates.bind fun s =>
    (Run.failsWith_inTurn (originates_pieces s c.toList)).bind fun _ =>
      (Run.spares_record _ _ _).originates.bind fun _ => originates_pure _

end Assembly

namespace Attach

theorem originates_pidCheck (own : Int) : (pidCheck source m own).Originates source m := by
  rw [pidCheck]
  split
  · exact (originates_load (Index.pidCheck_mem_allFiles _ _)).bind fun b =>
      (Run.spares_tellTraced _).originates.bind fun numeral =>
        (Run.spares_fillPid _ numeral b).originates
  · exact (Run.spares_tellOwn own).originates.bind fun numeral =>
      (originates_load_fixed (by simp [Index.fixedFiles])).bind fun b =>
        (Run.spares_fillPid _ numeral b).originates

theorem originates_expandReads (program : Buffer) :
    (expandReads source m program).Originates source m := by
  rw [expandReads]
  split
  case h_1 hblock =>
    exact (originates_load (Index.block?_mem_allFiles hblock)).bind fun _ =>
      (Run.spares_repeatBlock program _ _ _).originates
  case h_2 => exact originates_pure program

theorem originates_apply (own : Int) (text : Text) :
    (apply source m own text).Originates source m :=
  (originates_pidCheck own).bind fun _ => (originates_expandReads _).bind fun _ =>
    (Run.spares_finish _).originates

end Attach

/-- Every failure of a generation is one of loading a file of the index, of a handler that is
    not listed, or has nothing to do with fragments. -/
theorem originates_generate (source : Source Run) (c : Catalog) (m : Mode) (own : Int) :
    (generate source c m own).Originates source m :=
  (Assembly.originates_assemble c).bind fun _ => Attach.originates_apply own _

/-- The head is the first fragment that is loaded: without it there is nothing. -/
theorem generate_eq_error_of_head {c : Catalog} {own : Int} {s : Selection} {e : Failure}
    (hs : Selection.ofName? (m.expression.getD Selection.usualName) = some s)
    (h : (source.loadVerbatim source.index.head).result = .error e) :
    (generate source c m own).result = .error e := by
  have hhead : (Assembly.head source m).result = .error e := Run.result_bind_of_error h _
  have hpieces : (inTurn (Assembly.pieces source m s c.toList)).result = .error e :=
    Run.result_bind_of_error hhead _
  have hassemble : (Assembly.assemble source c m).result = .error e :=
    (Run.result_bind_of_ok (Selection.result_resolve_of_some hs) _).trans
      (Run.result_bind_of_error hpieces _)
  exact Run.result_bind_of_error hassemble _

/-! ## What the check promises -/

namespace Store

variable {s : Store} {c : Catalog} {own : Int}

/-- A store whose files are there and are texts never fails for a fragment that cannot be
    read. -/
theorem generate_ne_unreadable (hmissing : s.missing = .ok [])
    (htexts : ∀ name ∈ s.index.allFiles, ¬ s.IsUndecodable name) (path : Text)
    (cause : Option Cause) :
    (generate s.source c m own).result ≠ .error (.fragmentUnreadable path cause) := by
  intro h
  cases originates_generate s.source c m own _ h with
  | load name hname hload =>
    obtain ⟨b, hb⟩ := exists_loadVerbatim_of_check hmissing hname (htexts name hname)
    exact nomatch hb.symm.trans hload
  | handler count hcount hnone he => cases he
  | other hother => cases hother

/-- A store with a handler for every number of strings that can be captured, under every
    policy, never fails for one that is not listed. -/
theorem generate_ne_noHandler
    (htable : ∀ count : Nat, count ≤ captureLimit → ∀ policy,
      (s.index.handler? (count, policy)).isSome) (count : Value) (policy : ReadPolicy) :
    (generate s.source c m own).result ≠ .error (.noHandler count policy) := by
  intro h
  cases originates_generate s.source c m own _ h with
  | load name hname hload =>
    -- loading fails in other ways
    rcases loadVerbatim_eq_error (s := s) hload with h | ⟨_, h, -⟩ <;> cases h
  | handler count' hcount hnone he =>
    have hsome := htable count' hcount m.policy
    rw [show s.index.handler? (count', m.policy) = none from hnone] at hsome
    cases hsome
  | other hother => cases hother

/-- A fragment that could not be read is one of the index.  The check names it, or its bytes
    are no text, or its path is too long and the check fails, too. -/
theorem unreadable_of_generate {path : Text} {cause : Option Cause}
    (h : (generate s.source c m own).result = .error (.fragmentUnreadable path cause)) :
    ∃ name ∈ s.index.allFiles, path = (s.path name).write ∧
      ((s.holds name = .ok false ∧ ∀ missing, s.missing = .ok missing → name ∈ missing) ∨
        s.IsUndecodable name ∨
        s.files.node (s.path name) = .error .nameTooLong ∧
          s.missing = .error (.os .nameTooLong)) := by
  cases originates_generate s.source c m own _ h with
  | load name hname hload =>
    rcases loadVerbatim_eq_error (s := s) hload with h | ⟨_, h, hwhy⟩
    · cases h
    cases h
    refine ⟨name, hname, rfl, ?_⟩
    rcases hwhy with hnot | hlong | htext
    · exact .inl ⟨hnot, fun missing hmissing => (mem_missing hmissing).2 ⟨hname, hnot⟩⟩
    · exact .inr (.inr ⟨hlong, missing_of_tooLong hname hlong⟩)
    · exact .inr (.inl htext)
  | handler count hcount hnone he => cases he
  | other hother => cases hother

/-- What the check of a store says about generations from it.  Its list of files is complete
    and says nothing twice; if none of them is missing and all of them are texts, no generation
    fails for a fragment that cannot be read, and with a complete table of handlers none fails
    for one that is not listed.  Where a generation fails for a fragment, the check names it,
    unless it is no text, or its path is too long and the check fails, too. -/
theorem generate_of_check (s : Store) :
    s.index.allFiles.Nodup ∧
    (∀ name, name ∈ s.index.allFiles ↔
      name ∈ s.index.fixedFiles ∨ ∃ key, s.index.handler? key = some name) ∧
    ∀ (c : Catalog) (m : Mode) (own : Int),
      (s.missing = .ok [] → (∀ name ∈ s.index.allFiles, ¬ s.IsUndecodable name) →
        (∀ path cause,
          (generate s.source c m own).result ≠ .error (.fragmentUnreadable path cause)) ∧
        ((∀ count : Nat, count ≤ captureLimit → ∀ policy,
            (s.index.handler? (count, policy)).isSome) →
          ∀ count policy, (generate s.source c m own).result ≠ .error (.noHandler count policy))) ∧
      ∀ path cause, (generate s.source c m own).result = .error (.fragmentUnreadable path cause) →
        ∃ name ∈ s.index.allFiles, path = (s.path name).write ∧
          ((s.holds name = .ok false ∧ ∀ missing, s.missing = .ok missing → name ∈ missing) ∨
            s.IsUndecodable name ∨
            s.files.node (s.path name) = .error .nameTooLong ∧
              s.missing = .error (.os .nameTooLong)) :=
  ⟨s.index.nodup_allFiles, fun _ => Index.mem_allFiles, fun _ _ _ =>
    ⟨fun hmissing htexts =>
      ⟨generate_ne_unreadable hmissing htexts, generate_ne_noHandler⟩,
      fun _ _ => unreadable_of_generate⟩⟩

/-- The packaged fragments pass the check, so no program fails for one of them. -/
theorem generate_of_check_packaged :
    packaged.missing = .ok [] ∧
      (∀ name ∈ packaged.index.allFiles, ¬ packaged.IsUndecodable name) ∧
      ∀ (c : Catalog) (m : Mode) (own : Int),
        (∀ path cause,
          (generate packaged.source c m own).result ≠ .error (.fragmentUnreadable path cause)) ∧
        ∀ count policy,
          (generate packaged.source c m own).result ≠ .error (.noHandler count policy) := by
  have hmissing : packaged.missing = .ok [] := by
    have hoption : packaged.missing.toOption = some [] := by decide +kernel
    cases h : packaged.missing with
    | ok missing => rw [h] at hoption; exact congrArg Except.ok (Option.some.inj hoption)
    | error e => rw [h] at hoption; cases hoption
  have htexts : ∀ name ∈ packaged.index.allFiles, ¬ packaged.IsUndecodable name := by
    have hnames : ∀ name ∈ packaged.index.allFiles, name ∈ Packaged.names := by decide
    rintro name hname ⟨bytes, hread, hbytes⟩
    have hread' := read_packaged (Packaged.mem_fragments (hnames name hname))
    rw [show packaged.files.read (packaged.path name) = _ from hread', Except.ok.injEq] at hread
    rw [← hread, Text.Utf8.decode?_encode] at hbytes
    cases hbytes
  have htable : ∀ count : Nat, count ≤ captureLimit → ∀ policy,
      (packaged.index.handler? (count, policy)).isSome := by
    intro count hcount policy
    rw [captureLimit] at hcount
    interval_cases count <;> cases policy <;> rfl
  obtain ⟨-, -, hgenerate⟩ := generate_of_check packaged
  refine ⟨hmissing, htexts, fun c m own => ?_⟩
  obtain ⟨hread, hlisted⟩ := (hgenerate c m own).1 hmissing htexts
  exact ⟨hread, hlisted htable⟩

/-- A store whose head has a name of more bytes than a file can have. -/
def overlong : Store where
  directory := ⟨[], ["templates"]⟩
  files := { nodes := [(["templates"], .directory)], home := [] }
  index := { Index.usual with head := List.replicate 256 'x' }

/-- Where a name is too long, the generation says that its fragment cannot be read, but the
    check does not name it: it fails. -/
theorem missing_overlong :
    (generate overlong.source Catalog.empty {} 4711).result =
        .error (.fragmentUnreadable (overlong.path overlong.index.head).write
          (some (.os .nameTooLong))) ∧
      overlong.missing = .error (.os .nameTooLong) ∧
      ¬ overlong.IsUndecodable overlong.index.head := by
  have hnode : overlong.files.node (overlong.path overlong.index.head) = .error .nameTooLong := by
    decide +kernel
  have hread : overlong.files.read (overlong.path overlong.index.head) = .error .nameTooLong := by
    rw [Files.read, hnode]
    rfl
  have hload : (overlong.loadVerbatim overlong.index.head).result =
      .error (.fragmentUnreadable (overlong.path overlong.index.head).write
        (some (.os .nameTooLong))) := by
    rw [loadVerbatim, hread]
    rfl
  have hmember : overlong.index.head ∈ overlong.index.allFiles :=
    Index.mem_allFiles_of_fixed List.mem_cons_self
  refine ⟨?_, missing_of_tooLong hmember hnode, ?_⟩
  · exact generate_eq_error_of_head (m := {}) rfl hload
  · rintro ⟨bytes, hbytes, -⟩
    rw [hread] at hbytes
    cases hbytes

end Store

end Tracewright
