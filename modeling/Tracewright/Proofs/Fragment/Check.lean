/-
  Tracewright.Proofs.Fragment.Check

  What the check of a directory of fragments says about loading them.

    * `Index.nodup_allFiles`, `Index.mem_allFiles`
                           — the list of files is complete and says nothing
                             twice.
    * `Index.handler_int`  — a handler is found under its key.
    * `Store.mem_missing`  — the files that the check names.
    * `Store.exists_loadVerbatim_of_check`
                           — what passes the check and is text can be loaded.
    * `Store.loadVerbatim_eq_error`
                           — why a fragment cannot be loaded.
-/
import Mathlib.Tactic.SplitIfs
import Tracewright.Fragment.Source
import Tracewright.Proofs.Run

namespace Tracewright

/-- What is left of a list without its repetitions has none. -/
theorem nodup_eraseDups {α : Type} [BEq α] [LawfulBEq α] : ∀ xs : List α, xs.eraseDups.Nodup
  | [] => by
    rw [List.eraseDups_nil]
    exact List.nodup_nil
  | a :: xs => by
    rw [List.eraseDups_cons, List.nodup_cons]
    refine ⟨fun ha => ?_, nodup_eraseDups _⟩
    -- the first element has been taken out of the rest
    have hne := (List.mem_filter.1 (List.mem_eraseDups.1 ha)).2
    rw [beq_self_eq_true] at hne
    exact Bool.noConfusion hne
termination_by xs => xs.length
decreasing_by exact Nat.lt_succ_of_le (List.length_filter_le _ _)

namespace Index

variable (x : Index)

/-! ## The list of files -/

/-- The files that every index names, apart from the handlers. -/
def fixedFiles : List Text :=
  [x.head, x.definitions, x.tracepoints, x.fork, x.exit, x.pidCheckPlain, x.pidCheckFamily,
    x.pidCheckOwn, x.constBlock, x.fullBlock]

theorem nodup_allFiles : x.allFiles.Nodup := nodup_eraseDups _

/-- A key is listed as soon as there is a handler for it. -/
theorem mem_keys_of_handler? {x : Index} {key : HandlerKey} {name : Text}
    (h : x.handler? key = some name) : key ∈ x.keys := by
  obtain ⟨before, after, hhandlers, -⟩ := List.lookup_eq_some_iff.1 h
  rw [keys, mem_sortBy, List.mem_eraseDups]
  refine List.mem_map_of_mem (f := Prod.fst) (a := (key, name)) ?_
  rw [← List.mem_reverse, hhandlers]
  exact List.mem_append_right _ List.mem_cons_self

theorem mem_handlerFiles {x : Index} {name : Text} :
    name ∈ x.handlerFiles ↔ ∃ key, x.handler? key = some name := by
  rw [handlerFiles, List.mem_filterMap]
  exact ⟨fun ⟨key, _, h⟩ => ⟨key, h⟩, fun ⟨key, h⟩ => ⟨key, mem_keys_of_handler? h, h⟩⟩

/-- The list has the files of every purpose, and no others. -/
theorem mem_allFiles {x : Index} {name : Text} :
    name ∈ x.allFiles ↔ name ∈ x.fixedFiles ∨ ∃ key, x.handler? key = some name := by
  rw [allFiles, List.mem_eraseDups, List.mem_append, mem_handlerFiles, fixedFiles]

theorem mem_allFiles_of_fixed {x : Index} {name : Text} (h : name ∈ x.fixedFiles) :
    name ∈ x.allFiles :=
  mem_allFiles.2 (.inl h)

theorem pidCheck_mem_allFiles (family : Bool) : x.pidCheck family ∈ x.allFiles := by
  refine mem_allFiles_of_fixed ?_
  rw [pidCheck, fixedFiles]
  split_ifs <;> simp only [List.mem_cons, true_or, or_true]

theorem block?_mem_allFiles {x : Index} {policy : ReadPolicy} {file : Text}
    (h : x.block? policy = some file) : file ∈ x.allFiles := by
  refine mem_allFiles_of_fixed ?_
  rw [fixedFiles]
  cases policy <;> cases h <;> simp only [List.mem_cons, true_or, or_true]

/-! ## Handlers -/

/-- Looking for an integer count is looking up its key. -/
theorem handler_int (count : Int) (policy : ReadPolicy) :
    x.handler (.int count) policy =
      (x.handler? (count, policy)).elim (.error (.noHandler (.int count) policy)) .ok := by
  have hfind : ∀ es : List (HandlerKey × Text),
      (es.find? fun e => (Scalar.int e.1.1).same (.int count) && e.1.2 == policy).map Prod.snd =
        es.lookup (count, policy) := by
    intro es
    induction es with
    | nil => rfl
    | cons e es ih =>
      have hkey : ((Scalar.int e.1.1).same (.int count) && e.1.2 == policy) =
          ((count, policy) == e.1) := by
        obtain ⟨⟨count', policy'⟩, file⟩ := e
        show (some count' == some count && policy' == policy) =
          (count == count' && policy == policy')
        rw [Option.some_beq_some, BEq.comm (a := count'), BEq.comm (a := policy')]
      rw [List.find?_cons, List.lookup_cons, hkey]
      cases (count, policy) == e.1
      · exact ih
      · rfl
  rw [handler, handler?, ← hfind]
  cases x.handlers.reverse.find? fun e => (Scalar.int e.1.1).same (.int count) && e.1.2 == policy
    <;> rfl

end Index

namespace Store

variable {s : Store} {name : Text}

/-! ## The check -/

/-- There is a file, but its bytes are no text. -/
def IsUndecodable (s : Store) (name : Text) : Prop :=
  ∃ bytes, s.files.read (s.path name) = .ok bytes ∧ Text.Utf8.decode? bytes = none

/-- The check fails for a path that is too long, and for nothing else. -/
theorem holds_eq_error {e : Failure} (h : s.holds name = .error e) :
    e = .os .nameTooLong ∧ s.files.node (s.path name) = .error .nameTooLong := by
  rw [holds, Files.probe] at h
  cases hnode : s.files.node (s.path name) with
  | ok n => rw [hnode] at h; cases h
  | error fault =>
    rw [hnode] at h
    cases fault <;> cases h
    exact ⟨rfl, rfl⟩

/-- The names that the check goes through are missing if there is no file. -/
theorem mem_missingOf {names missing : List Text} (h : s.missingOf names = .ok missing) :
    name ∈ missing ↔ name ∈ names ∧ s.holds name = .ok false := by
  induction names generalizing missing with
  | nil => cases h; simp
  | cons first rest ih =>
    rw [missingOf] at h
    cases hfirst : s.holds first with
    | error e => rw [hfirst] at h; cases h
    | ok here =>
      cases hrest : s.missingOf rest with
      | error e => rw [hfirst, hrest] at h; cases h
      | ok others =>
        rw [hfirst, hrest] at h
        cases h
        have ih := ih hrest
        cases here with
        | true =>
          -- the first file is there, so it is another one
          rw [if_pos rfl, ih, List.mem_cons]
          refine ⟨fun h => ⟨.inr h.1, h.2⟩, fun ⟨hmem, hnot⟩ => ⟨hmem.resolve_left ?_, hnot⟩⟩
          rintro rfl
          rw [hfirst] at hnot
          cases hnot
        | false =>
          rw [if_neg Bool.false_ne_true, List.mem_cons, ih, List.mem_cons]
          constructor
          · rintro (rfl | h)
            · exact ⟨.inl rfl, hfirst⟩
            · exact ⟨.inr h.1, h.2⟩
          · rintro ⟨rfl | hmem, hnot⟩
            · exact .inl rfl
            · exact .inr ⟨hmem, hnot⟩

theorem mem_missing {missing : List Text} (h : s.missing = .ok missing) :
    name ∈ missing ↔ name ∈ s.index.allFiles ∧ s.holds name = .ok false :=
  mem_missingOf h

/-- A check that ends has asked about every name. -/
theorem holds_of_missingOf {names missing : List Text} (h : s.missingOf names = .ok missing)
    (hname : name ∈ names) : ∃ here, s.holds name = .ok here := by
  induction names generalizing missing with
  | nil => exact absurd hname List.not_mem_nil
  | cons first rest ih =>
    rw [missingOf] at h
    cases hfirst : s.holds first with
    | error e => rw [hfirst] at h; cases h
    | ok here =>
      cases hrest : s.missingOf rest with
      | error e => rw [hfirst, hrest] at h; cases h
      | ok others =>
        rcases List.mem_cons.1 hname with rfl | hname
        · exact ⟨here, hfirst⟩
        · exact ih hrest hname

/-- A check that does not end has met a path that is too long. -/
theorem missingOf_eq_error {names : List Text} {e : Failure} (h : s.missingOf names = .error e) :
    e = .os .nameTooLong := by
  induction names with
  | nil => cases h
  | cons first rest ih =>
    rw [missingOf] at h
    cases hfirst : s.holds first with
    | error e' =>
      rw [hfirst] at h
      cases h
      exact (holds_eq_error hfirst).1
    | ok here =>
      cases hrest : s.missingOf rest with
      | error e' =>
        rw [hfirst, hrest] at h
        cases h
        exact ih hrest
      | ok others => rw [hfirst, hrest] at h; cases h

/-- A listed path that is too long ends the check. -/
theorem missing_of_tooLong (hname : name ∈ s.index.allFiles)
    (h : s.files.node (s.path name) = .error .nameTooLong) :
    s.missing = .error (.os .nameTooLong) := by
  cases hmissing : s.missing with
  | ok missing =>
    obtain ⟨here, hhere⟩ := holds_of_missingOf hmissing hname
    rw [holds, Files.probe, h] at hhere
    cases hhere
  | error e => rw [missingOf_eq_error hmissing]

/-! ## Loading what has been checked -/

/-- A file that is there has bytes. -/
theorem exists_read_of_holds (h : s.holds name = .ok true) :
    ∃ bytes, s.files.read (s.path name) = .ok bytes := by
  rw [holds, Files.probe] at h
  rw [Files.read]
  cases hnode : s.files.node (s.path name) with
  | error fault => rw [hnode] at h; cases fault <;> cases h
  | ok n =>
    rw [hnode] at h
    cases n with
    | directory => cases h
    | file bytes => exact ⟨bytes, rfl⟩

/-- A file that cannot be read is not there, or its path is too long. -/
theorem holds_of_read_eq_error {fault : OsFault} (h : s.files.read (s.path name) = .error fault) :
    s.holds name = .ok false ∨ s.files.node (s.path name) = .error .nameTooLong := by
  cases hholds : s.holds name with
  | error e => exact .inr (holds_eq_error hholds).2
  | ok here =>
    cases here with
    | false => exact .inl rfl
    | true =>
      obtain ⟨bytes, hbytes⟩ := exists_read_of_holds hholds
      rw [hbytes] at h
      cases h

/-- What passes the check and is text can be loaded. -/
theorem exists_loadVerbatim_of_check (hmissing : s.missing = .ok [])
    (hname : name ∈ s.index.allFiles) (htext : ¬ s.IsUndecodable name) :
    ∃ b, (s.loadVerbatim name).result = .ok b := by
  have hthere : s.holds name = .ok true := by
    obtain ⟨here, hhere⟩ := holds_of_missingOf hmissing hname
    cases here with
    | true => exact hhere
    | false => exact absurd ((mem_missing hmissing).2 ⟨hname, hhere⟩) List.not_mem_nil
  obtain ⟨bytes, hread⟩ := exists_read_of_holds hthere
  cases htext' : Text.Utf8.decode? bytes with
  | none => exact absurd ⟨bytes, hread, htext'⟩ htext
  | some t =>
    refine ⟨⟨t, name⟩, ?_⟩
    rw [loadVerbatim, hread]
    simp only [htext']
    rfl

/-- Loading fails for a name that no file has, or for a fragment that cannot be read: it is not
    there, or its path is too long, or it is no text. -/
theorem loadVerbatim_eq_error {e : Failure} (h : (s.loadVerbatim name).result = .error e) :
    e = .value .unnameable ∨ ∃ cause, e = .fragmentUnreadable (s.path name).write (some cause) ∧
      (s.holds name = .ok false ∨ s.files.node (s.path name) = .error .nameTooLong ∨
        s.IsUndecodable name) := by
  rw [loadVerbatim] at h
  cases hread : s.files.read (s.path name) with
  | error fault =>
    have hwhy := holds_of_read_eq_error hread
    rw [hread] at h
    cases fault with
    | unnameable => cases h; exact .inl rfl
    | _ => cases h; exact .inr ⟨_, rfl, hwhy.imp_right .inl⟩
  | ok bytes =>
    rw [hread] at h
    cases htext : Text.Utf8.decode? bytes with
    | none =>
      simp only [htext] at h
      cases h
      exact .inr ⟨_, rfl, .inr (.inr ⟨bytes, hread, htext⟩)⟩
    | some t =>
      simp only [htext] at h
      cases h

end Store

end Tracewright
