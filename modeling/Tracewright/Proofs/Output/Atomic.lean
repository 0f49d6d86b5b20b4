/-
  Tracewright.Proofs.Output.Atomic

  Exports one after the other, with trouble that strikes now and then.  Each
  of them writes its file as a whole or changes no file; one that fails may
  leave directories, and only these can matter to a later one.

    * `Call`, `session` — exports one after the other.
    * `Event.IsAtomic`  — what one of them does.
    * `Admits`          — nothing is in the way of a file.
    * `placeInSteps_in_tree`, `admits_congr`
                        — a program arrives exactly then, and directories that
                          are there already change nothing about it.
    * `session_mono`    — nor about exports to other places.
    * `session_atomic`  — what holds of every export of a session.
-/
import Mathlib.Data.List.Forall2
import Tracewright.Proofs.Output.Delivery
import Tracewright.Proofs.Output.Steps
import Tracewright.Proofs.Text.Seam

namespace Tracewright.Export

open Files (AddsDirectories HasNul IsTree NoFurther Untouched follow)

/-! ## Sessions -/

/-- An export: a program, the name of its file, what its temporary name is made of, and the trouble
    that strikes. -/
structure Call where
  text : Text
  name : Text
  random : Text
  trouble : Trouble := .none

/-- The path of the file of an export. -/
def Call.path (c : Call) (directory : Text) : Path :=
  (Path.ofText directory).join (Path.ofText c.name)

/-- The name of the file has no NUL, and the temporary name is one. -/
def Call.IsProper (c : Call) : Prop := '\x00' ∉ c.name ∧ IsRandom c.random

/-- Writes a program step by step. -/
def writeInSteps (directory : Text) (c : Call) : Action Files Path := fun files =>
  match placeInSteps c.trouble c.random files (c.path directory) c.text with
  | (none, files) => (written (c.path directory) c.text, files)
  | (some fault, files) => (refused (c.path directory).write fault, files)

/-- An export that has been made, with the files before and after it. -/
structure Event where
  call : Call
  before : Files
  result : Except Failure Path
  after : Files

/-- Makes an export. -/
def Call.run (directory : Text) (files : Files) (c : Call) : Event where
  call := c
  before := files
  result := (writeInSteps directory c files).1.result
  after := (writeInSteps directory c files).2

/-- Exports one after the other. -/
def session (directory : Text) (files : Files) : List Call → List Event
  | [] => []
  | c :: rest => c.run directory files :: session directory (c.run directory files).after rest

/-- The program is found at its path, and no other file has changed; or the export has failed as
    one of a file that cannot be written, and no file has changed. -/
def Event.IsAtomic (e : Event) (directory : Text) : Prop :=
  (e.result = .ok (e.call.path directory) ∧ ∃ x, e.after.locate (e.call.path directory) = .ok x ∧
    e.after.get? x = some (.file (Text.Utf8.encode e.call.text)) ∧
    ∀ other, other ≠ x → Untouched e.before e.after other) ∨
  ∃ fault, e.result = .error (.fileRefused (e.call.path directory).write (.os fault)) ∧
    AddsDirectories e.before e.after

/-! ## Paths of exports -/

theorem mem_parts_ofText {t part : Text} (h : part ∈ (Path.ofText t).parts) :
    part ≠ [] ∧ ∀ c ∈ part, c ∈ t := by
  obtain ⟨hsplit, hpart⟩ := List.mem_filter.1 h
  refine ⟨?_, fun c hc => Text.mem_of_mem_split (List.cons_ne_nil _ _) hsplit hc⟩
  rintro rfl
  cases hpart

theorem mem_parts_join {p q : Path} {part : Text} (h : part ∈ (p.join q).parts) :
    part ∈ p.parts ∨ part ∈ q.parts := by
  rw [Path.join] at h
  split_ifs at h
  · exact List.mem_append.1 h
  · exact .inr h

section Paths

variable {c : Call} {directory : Text}

theorem nil_not_mem_path (c : Call) (directory : Text) :
    ([] : Text) ∉ (c.path directory).parts := by
  intro h
  rcases mem_parts_join h with h | h
  · exact (mem_parts_ofText h).1 rfl
  · exact (mem_parts_ofText h).1 rfl

theorem not_hasNul_path (hdirectory : '\x00' ∉ directory) (hc : c.IsProper) :
    ¬ HasNul (c.path directory) := by
  intro h
  obtain ⟨part, hpart, hnul⟩ := List.any_eq_true.1 h
  rw [List.contains_eq_mem, decide_eq_true_eq] at hnul
  rcases mem_parts_join hpart with hpart | hpart
  · exact hdirectory ((mem_parts_ofText hpart).2 _ hnul)
  · exact hc.1 ((mem_parts_ofText hpart).2 _ hnul)

end Paths

/-! ## One export -/

variable {trouble : Trouble} {random text : Text} {files : Files} {path : Path}

/-- A program is found at its path as a whole, or no file has changed, wherever trouble has
    struck. -/
theorem placeInSteps_cases (hrandom : IsRandom random) (hp : ¬ HasNul path) (trouble : Trouble)
    (files : Files) (text : Text) :
    (∃ after x, placeInSteps trouble random files path text = (none, after) ∧
      after.locate path = .ok x ∧ after.get? x = some (.file (Text.Utf8.encode text)) ∧
      after.home = files.home ∧ ∀ other, other ≠ x → Untouched files after other) ∨
    ∃ fault after, placeInSteps trouble random files path text = (some fault, after) ∧
      fault ≠ .unnameable ∧ AddsDirectories files after := by
  have hadds := addsDirectories_makeParents trouble files path.parent
  have hnamed := makeParents_ne_unnameable (Files.not_hasNul_parent hp) trouble files
  rcases hmake : makeParents trouble files path.parent with ⟨made, _ | fault⟩
  · rw [hmake] at hadds
    by_cases hclear : IsClear trouble random made path
    · rw [placeInSteps_of_clear hrandom hmake hclear]
      cases hreplace : made.replace path (Text.Utf8.encode text) with
      | error fault =>
        refine .inr ⟨fault, made, rfl, ?_, hadds⟩
        rintro rfl
        exact Files.replace_ne_unnameable hp _ hreplace
      | ok after =>
        -- apart from the target, only directories have come in on the way
        obtain ⟨x, hlocate, hget, hhome, hothers⟩ := Files.replace_eq_ok hreplace
        refine .inl ⟨after, x, rfl, hlocate, hget, hhome.trans hadds.home, fun other hother => ?_⟩
        exact (hadds.untouched other).trans (.inl (hothers other hother))
    · obtain ⟨fault, hfault, hplace⟩ := placeInSteps_of_not_clear hrandom hp hmake hclear text
      exact .inr ⟨fault, made, hplace, hfault, hadds⟩
  · rw [hmake] at hadds hnamed
    refine .inr ⟨fault, made, placeInSteps_of_some hmake random text, ?_, hadds⟩
    rintro rfl
    exact hnamed rfl

theorem result_refused {fault : OsFault} (h : fault ≠ .unnameable) (path : Text) :
    (refused path fault).result = .error (.fileRefused path (.os fault)) := by
  cases fault with
  | unnameable => exact absurd rfl h
  | _ => rfl

section Run

variable {c : Call} {directory : Text} {after : Files} {fault : OsFault}

theorem run_of_none (h : placeInSteps c.trouble c.random files (c.path directory) c.text =
    (none, after)) : c.run directory files = ⟨c, files, .ok (c.path directory), after⟩ := by
  rw [Call.run, writeInSteps, h]
  rfl

theorem run_of_some (h : placeInSteps c.trouble c.random files (c.path directory) c.text =
    (some fault, after)) (hfault : fault ≠ .unnameable) :
    c.run directory files =
      ⟨c, files, .error (.fileRefused (c.path directory).write (.os fault)), after⟩ := by
  rw [Call.run, writeInSteps, h, ← result_refused hfault]

theorem isAtomic_run (hdirectory : '\x00' ∉ directory) (hc : c.IsProper) (files : Files) :
    (c.run directory files).IsAtomic directory := by
  rcases placeInSteps_cases hc.2 (not_hasNul_path hdirectory hc) c.trouble files c.text with
    ⟨after, x, hplace, hlocate, hget, -, hothers⟩ | ⟨fault, after, hplace, hfault, hadds⟩
  · rw [run_of_none hplace]
    exact .inl ⟨rfl, x, hlocate, hget, hothers⟩
  · rw [run_of_some hplace hfault]
    exact .inr ⟨fault, rfl, hadds⟩

/-- No trouble strikes, and the temporary name is not taken. -/
def Call.IsClear (c : Call) (directory : Text) (files : Files) : Prop :=
  c.trouble = .none ∧ Export.IsClear .none c.random
    (files.makeDirectories (c.path directory).parent).1 (c.path directory)

/-- An export that nothing disturbs is what writing the program does. -/
theorem run_eq_write (hc : c.IsProper) (hclear : c.IsClear directory files) :
    c.run directory files = ⟨c, files, (write directory c.name c.text files).1.result,
      (write directory c.name c.text files).2⟩ := by
  have hplace := placeInSteps_eq_place hc.2 hclear.2 c.text
  have hsteps : writeInSteps directory c files = write directory c.name c.text files := by
    rw [writeInSteps, hclear.1, hplace]
    rfl
  rw [Call.run, hsteps]

end Run

/-! ## One export in a tree -/

/-- Where the names of a path lead, with a name in the place of the last one. -/
def beside (f : Files) (p : Path) (name : Text) : Location :=
  follow (f.start p) p.parent.parts ++ [name]

/-- The directories of a path can be made, nothing is in the way of a temporary file in the last
    one, and the file can be put there. -/
structure Admits (trouble : Trouble) (random : Text) (f : Files) (p : Path) : Prop where
  parents : (makeParents trouble f p.parent).2 = none
  clear : IsClear trouble random (makeParents trouble f p.parent).1 p
  fits : (makeParents trouble f p.parent).1.Fits p
  free : (makeParents trouble f p.parent).1.get? (beside f p p.name) ≠ some .directory

section Tree

variable {f g made : Files} {p : Path} {above : Location}

theorem nil_not_mem_parent (hparts : ([] : Text) ∉ p.parts) : ([] : Text) ∉ p.parent.parts :=
  fun h => hparts ((List.dropLast_sublist _).subset h)

/-- The last directory of a path, once it has been made. -/
theorem parents_of_none (hf : IsTree f) (hparts : ([] : Text) ∉ p.parts)
    (h : (makeParents trouble f p.parent).2 = none) :
    let made := (makeParents trouble f p.parent).1
    made.walk (made.start p) p.parent.parts = .ok (follow (f.start p) p.parent.parts) ∧
      made.get? (follow (f.start p) p.parent.parts) = some .directory := by
  have hadds := addsDirectories_makeParents trouble f p.parent
  have hnot := nil_not_mem_parent hparts
  have hmake : makeParents trouble f p.parent = ((makeParents trouble f p.parent).1, none) := by
    rw [← h]
  obtain ⟨-, hwalk, habove⟩ := Files.makeDirectories_eq_none hf hnot (makeParents_eq_none hmake)
  have hstart : (makeParents trouble f p.parent).1.start p = f.start p := by
    rw [Files.start, Files.start, hadds.home]
  exact ⟨hstart ▸ hwalk, habove⟩

/-- Where the last directory is there, a temporary name is free if nothing stands at its place. -/
theorem isClear_iff (hwalk : made.walk (made.start p) p.parent.parts = .ok above)
    (habove : made.get? above = some .directory) :
    IsClear trouble random made p ↔ trouble.SparesFile ∧ (Files.nameable p.parent = .ok () →
      made.get? (above ++ [temporaryName p.name random]) = none) := by
  have hparent : made.locateParent p = (Files.nameable p.parent >>= fun _ => .ok above) := by
    have hstart : made.start p.parent = made.start p := rfl
    rw [Files.locateParent, Files.locate, hstart, hwalk]
    cases Files.nameable p.parent with
    | error fault => rfl
    | ok u => simp only [bind, Except.bind, habove]
  rw [IsClear, hparent]
  refine and_congr_right fun _ => ?_
  cases Files.nameable p.parent with
  | error fault =>
    constructor
    · rintro - ⟨⟩
    · rintro - above' ⟨⟩
  | ok u =>
    constructor
    · intro h _
      exact h above rfl
    · rintro h _ ⟨⟩
      exact h rfl

/-- In a tree, a program arrives exactly where nothing is in the way. -/
theorem placeInSteps_in_tree (hf : IsTree f) (hrandom : IsRandom random) (hp : ¬ HasNul p)
    (hparts : ([] : Text) ∉ p.parts) (trouble : Trouble) (text : Text) :
    (Admits trouble random f p ∧ placeInSteps trouble random f p text =
      (none, (makeParents trouble f p.parent).1.put (beside f p p.name)
        (.file (Text.Utf8.encode text)))) ∨
    (¬ Admits trouble random f p ∧ ∃ fault, fault ≠ .unnameable ∧
      placeInSteps trouble random f p text = (some fault, (makeParents trouble f p.parent).1)) := by
  have hnamed := makeParents_ne_unnameable (Files.not_hasNul_parent hp) trouble f
  -- the directories first, then the steps in the tree that they leave
  rcases hmake : makeParents trouble f p.parent with ⟨made, _ | fault⟩
  · have hnone : (makeParents trouble f p.parent).2 = none := by rw [hmake]
    obtain ⟨hwalk, habove⟩ := parents_of_none hf hparts hnone
    rw [hmake] at hwalk habove
    by_cases hclear : IsClear trouble random made p
    · rw [placeInSteps_of_clear hrandom hmake hclear]
      rcases Files.replace_cases hwalk habove (Text.Utf8.encode text) with
        ⟨hfits, hfree, hreplace⟩ | ⟨hnot, fault, hreplace⟩
      · rw [hreplace]
        refine .inl ⟨⟨hnone, ?_, ?_, ?_⟩, rfl⟩ <;> rw [hmake]
        · exact hclear
        · exact hfits
        · exact hfree
      · rw [hreplace]
        refine .inr ⟨fun h => hnot ?_, fault, ?_, rfl⟩
        · have hfits := h.fits
          have hfree := h.free
          rw [hmake] at hfits hfree
          exact ⟨hfits, hfree⟩
        · rintro rfl
          exact Files.replace_ne_unnameable hp _ hreplace
    · obtain ⟨fault, hfault, hplace⟩ := placeInSteps_of_not_clear hrandom hp hmake hclear text
      refine .inr ⟨fun h => hclear ?_, fault, hfault, hplace⟩
      have hclear' := h.clear
      rw [hmake] at hclear'
      exact hclear'
  · rw [hmake] at hnamed
    refine .inr ⟨fun h => ?_, fault, ?_, placeInSteps_of_some hmake random text⟩
    · have hnone := h.parents
      rw [hmake] at hnone
      cases hnone
    · rintro rfl
      exact hnamed rfl

theorem isTree_placeInSteps (hf : IsTree f) (hrandom : IsRandom random) (hp : ¬ HasNul p)
    (hparts : ([] : Text) ∉ p.parts) (trouble : Trouble) (text : Text) :
    IsTree (placeInSteps trouble random f p text).2 := by
  have hnot := nil_not_mem_parent hparts
  have hmade := isTree_makeParents hf hnot trouble
  rcases placeInSteps_in_tree hf hrandom hp hparts trouble text with
    ⟨hadmits, hplace⟩ | ⟨-, fault, -, hplace⟩
  · rw [hplace]
    have habove := (parents_of_none hf hparts hadmits.parents).2
    exact hmade.put habove hadmits.free _
  · rw [hplace]
    exact hmade

/-- Directories that are there already change nothing about whether a file can be put at a path,
    unless they stand at its place or under the temporary name. -/
theorem admits_congr (hf : IsTree f) (hg : IsTree g) (h : AddsDirectories f g)
    (hparts : ([] : Text) ∉ p.parts)
    (htarget : g.get? (beside f p p.name) = f.get? (beside f p p.name))
    (htemporary : g.get? (beside f p (temporaryName p.name random)) =
      f.get? (beside f p (temporaryName p.name random))) :
    Admits trouble random g p ↔ Admits trouble random f p := by
  have hnot := nil_not_mem_parent hparts
  have hstart : g.start p = f.start p := by rw [Files.start, Files.start, h.home]
  obtain ⟨hmade, hfurther⟩ := makeParents_mono hf hg h hnot trouble
  have hnone : (makeParents trouble g p.parent).2 = none ↔
      (makeParents trouble f p.parent).2 = none := by
    rw [← Option.isNone_iff_eq_none, hmade, Option.isNone_iff_eq_none]
  by_cases hparents : (makeParents trouble f p.parent).2 = none
  · obtain ⟨hwalk, habove⟩ := parents_of_none hf hparts hparents
    obtain ⟨hwalk', habove'⟩ := parents_of_none hg hparts (hnone.2 hparents)
    rw [hstart] at hwalk' habove'
    -- the trees still agree at the place of the file and under the temporary name
    have htarget' := hfurther.same _ htarget
    have htemporary' := hfurther.same _ htemporary
    have hclear : IsClear trouble random (makeParents trouble g p.parent).1 p ↔
        IsClear trouble random (makeParents trouble f p.parent).1 p := by
      rw [beside] at htemporary'
      rw [isClear_iff hwalk habove, isClear_iff hwalk' habove', htemporary']
    have hfits := Files.fits_congr (p := p) hfurther.adds.home
    have hbeside : beside g p p.name = beside f p p.name := by rw [beside, beside, hstart]
    constructor
    · rintro ⟨-, hclear', hfits', hfree⟩
      rw [hbeside, htarget'] at hfree
      exact ⟨hparents, hclear.1 hclear', hfits.1 hfits', hfree⟩
    · rintro ⟨-, hclear', hfits', hfree⟩
      rw [← htarget', ← hbeside] at hfree
      exact ⟨hnone.2 hparents, hclear.2 hclear', hfits.2 hfits', hfree⟩
  · exact ⟨fun hadmits => absurd (hnone.1 hadmits.parents) hparents,
      fun hadmits => absurd hadmits.parents hparents⟩

/-- Nor do they change what an export to such a place comes to, and the trees become no more
    different. -/
theorem placeInSteps_mono (hf : IsTree f) (hg : IsTree g) (h : AddsDirectories f g)
    (hrandom : IsRandom random) (hp : ¬ HasNul p) (hparts : ([] : Text) ∉ p.parts)
    (htarget : g.get? (beside f p p.name) = f.get? (beside f p p.name))
    (htemporary : g.get? (beside f p (temporaryName p.name random)) =
      f.get? (beside f p (temporaryName p.name random))) (trouble : Trouble) (text : Text) :
    (placeInSteps trouble random g p text).1.isNone =
        (placeInSteps trouble random f p text).1.isNone ∧
      NoFurther f g (placeInSteps trouble random f p text).2
        (placeInSteps trouble random g p text).2 := by
  have hnot := nil_not_mem_parent hparts
  have hadmits : Admits trouble random g p ↔ Admits trouble random f p :=
    admits_congr hf hg h hparts htarget htemporary
  have hfurther := (makeParents_mono hf hg h hnot trouble).2
  rcases placeInSteps_in_tree hf hrandom hp hparts trouble text with
    ⟨hyes, hplace⟩ | ⟨hno, fault, -, hplace⟩
  · rcases placeInSteps_in_tree hg hrandom hp hparts trouble text with
      ⟨-, hplace'⟩ | ⟨hno', -⟩
    · have hbeside : beside g p p.name = beside f p p.name := by
        rw [beside, beside, Files.start, Files.start, h.home]
      rw [hplace, hplace', hbeside]
      exact ⟨rfl, hfurther.trans (NoFurther.put hfurther.adds _ _ _)⟩
    · exact absurd (hadmits.2 hyes) hno'
  · rcases placeInSteps_in_tree hg hrandom hp hparts trouble text with
      ⟨hyes', -⟩ | ⟨-, fault', -, hplace'⟩
    · exact absurd (hadmits.1 hyes') hno
    · rw [hplace, hplace']
      exact ⟨rfl, hfurther⟩

/-- A directory stands at the path, or a file where a directory of the path would be. -/
def IsBlocked (f : Files) (p : Path) : Prop :=
  f.node p = .ok .directory ∨ ∃ count bytes, count < p.parts.length ∧
    f.node ⟨p.root, p.parts.take count⟩ = .ok (.file bytes)

theorem exists_of_node {n : Node} (h : f.node p = .ok n) :
    ∃ e, f.walk (f.start p) p.parts = .ok e ∧ f.get? e = some n := by
  rw [Files.node, Files.locate] at h
  obtain ⟨e, hlocate, hnode⟩ := Files.bind_eq_ok h
  obtain ⟨-, -, hwalk⟩ := Files.bind_eq_ok hlocate
  refine ⟨e, hwalk, ?_⟩
  cases hget : f.get? e with
  | none =>
    rw [hget] at hnode
    cases hnode
  | some n' =>
    rw [hget] at hnode
    cases hnode
    rfl

/-- Nothing is put in the place of a directory, or below a file. -/
theorem not_admits_of_blocked (hf : IsTree f) (hparts : ([] : Text) ∉ p.parts)
    (h : IsBlocked f p) : ¬ Admits trouble random f p := by
  intro hadmits
  have hnot := nil_not_mem_parent hparts
  obtain ⟨hnameable, -, -, -, hname, hup⟩ := hadmits.fits
  rcases h with hdirectory | ⟨count, bytes, hcount, hfile⟩
  · -- the directory is where the file would be put, and it stays there
    obtain ⟨e, hwalk, hget⟩ := exists_of_node hdirectory
    have hplace : e = beside f p p.name := by
      rw [Files.eq_follow_of_walk hwalk, Files.parts_eq hname, Files.follow_append, beside,
        follow, if_neg hup, follow]
    rw [hplace] at hget
    exact hadmits.free ((addsDirectories_makeParents trouble f p.parent).get?_of_some hget)
  · -- the directories cannot be made through the file
    obtain ⟨e, hwalk, hget⟩ := exists_of_node hfile
    have hmake := makeParents_eq_none (g := (makeParents trouble f p.parent).1)
      (Prod.ext rfl hadmits.parents)
    have hagrees := (Files.makeDirectories_agrees hf hnot hnameable).2
    have hfront : p.parent.parts = p.parts.take count ++ (p.parent.parts).drop count := by
      have htake : p.parent.parts.take count = p.parts.take count := by
        rw [Path.parent, List.dropLast_eq_take, List.take_take, Nat.min_eq_left (by omega)]
      rw [← htake, List.take_append_drop]
    have hstop := Files.makeAlong_of_walk_file hf (hf.start _) hwalk hget
    have hend : f.makeAlong (f.start p.parent) p.parent.parts = (f, none) := by
      have hstart : f.start p.parent = f.start ⟨p.root, p.parts.take count⟩ := rfl
      rw [hfront, Files.makeAlong_append, hstart, hstop]
    rw [hmake, hend] at hagrees
    cases hagrees

end Tree

/-! ## One export after the other -/

/-- Two exports have come to the same: both have failed, or both have given the path, and the files
    are the same but for directories. -/
structure Event.SameOutcome (e e' : Event) : Prop where
  call : e'.call = e.call
  result : e'.result.toOption = e.result.toOption
  after : AddsDirectories e.after e'.after

/-- The location is a directory that has been made for an export. -/
def Event.HasMade (e : Event) (x : Location) : Prop :=
  e.before.get? x = none ∧ e.after.get? x = some .directory

/-- Where an export puts things: its file, and the temporary one. -/
def Call.places (c : Call) (directory : Text) (f : Files) : List Location :=
  let p := c.path directory
  [beside f p p.name, beside f p (temporaryName p.name c.random)]

section Session

variable {directory : Text} {c : Call} {f g : Files} {calls : List Call}

theorem places_congr (h : g.home = f.home) (c : Call) :
    c.places directory g = c.places directory f := by
  rw [Call.places, Call.places, beside, beside, beside, beside, Files.start, Files.start, h]

theorem isTree_run (hdirectory : '\x00' ∉ directory) (hc : c.IsProper) (hf : IsTree f) :
    IsTree (c.run directory f).after := by
  have htree := isTree_placeInSteps hf hc.2 (not_hasNul_path hdirectory hc)
    (nil_not_mem_path c directory) c.trouble c.text
  have hafter : (c.run directory f).after =
      (placeInSteps c.trouble c.random f (c.path directory) c.text).2 := by
    rw [Call.run, writeInSteps]
    split <;> simp only [*]
  rw [hafter]
  exact htree

theorem home_run (hdirectory : '\x00' ∉ directory) (hc : c.IsProper) (f : Files) :
    (c.run directory f).after.home = f.home := by
  rcases placeInSteps_cases hc.2 (not_hasNul_path hdirectory hc) c.trouble f c.text with
    ⟨after, x, hplace, -, -, hhome, -⟩ | ⟨fault, after, hplace, hfault, hadds⟩
  · rw [run_of_none hplace, hhome]
  · rw [run_of_some hplace hfault, hadds.home]

/-- One export in two trees. -/
theorem run_mono (hdirectory : '\x00' ∉ directory) (hc : c.IsProper) (hf : IsTree f)
    (hg : IsTree g) (h : AddsDirectories f g)
    (hplaces : ∀ x ∈ c.places directory f, g.get? x = f.get? x) :
    (c.run directory f).SameOutcome (c.run directory g) ∧
      NoFurther f g (c.run directory f).after (c.run directory g).after := by
  have hp := not_hasNul_path hdirectory hc
  have hparts := nil_not_mem_path c directory
  have htarget := hplaces _ (List.mem_cons_self)
  have htemporary := hplaces _ (List.mem_cons_of_mem _ List.mem_cons_self)
  obtain ⟨hsome, hfurther⟩ := placeInSteps_mono hf hg h hc.2 hp hparts htarget htemporary c.trouble
    c.text
  -- either both have arrived, or both have failed
  rcases placeInSteps_cases hc.2 hp c.trouble f c.text with
    ⟨after, x, hplace, -⟩ | ⟨fault, after, hplace, hfault, -⟩
  · rcases placeInSteps_cases hc.2 hp c.trouble g c.text with
      ⟨after', x', hplace', -⟩ | ⟨fault', after', hplace', hfault', -⟩
    · rw [hplace, hplace'] at hfurther
      rw [run_of_none hplace, run_of_none hplace']
      exact ⟨⟨rfl, rfl, hfurther.adds⟩, hfurther⟩
    · rw [hplace, hplace'] at hsome
      cases hsome
  · rcases placeInSteps_cases hc.2 hp c.trouble g c.text with
      ⟨after', x', hplace', -⟩ | ⟨fault', after', hplace', hfault', -⟩
    · rw [hplace, hplace'] at hsome
      cases hsome
    · rw [hplace, hplace'] at hfurther
      rw [run_of_some hplace hfault, run_of_some hplace' hfault']
      exact ⟨⟨rfl, rfl, hfurther.adds⟩, hfurther⟩

/-- Directories that are there already change nothing about exports to other places. -/
theorem session_mono (hdirectory : '\x00' ∉ directory) (hcalls : ∀ c ∈ calls, c.IsProper)
    (hf : IsTree f) (hg : IsTree g) (h : AddsDirectories f g)
    (hplaces : ∀ c ∈ calls, ∀ x ∈ c.places directory f, g.get? x = f.get? x) :
    List.Forall₂ Event.SameOutcome (session directory f calls) (session directory g calls) := by
  induction calls generalizing f g with
  | nil => exact .nil
  | cons c calls ih =>
    rw [List.forall_mem_cons] at hcalls hplaces
    obtain ⟨hsame, hfurther⟩ := run_mono hdirectory hcalls.1 hf hg h hplaces.1
    refine .cons hsame (ih hcalls.2 (isTree_run hdirectory hcalls.1 hf)
      (isTree_run hdirectory hcalls.1 hg) hfurther.adds ?_)
    intro c' hc' x hx
    -- what the trees agreed on before, they agree on now
    rw [places_congr (home_run hdirectory hcalls.1 f)] at hx
    exact hfurther.same x (hplaces.2 c' hc' x hx)

/-- Whatever every export does from a tree, every export of a session does. -/
theorem forall_mem_session {holds : Event → Prop} (hdirectory : '\x00' ∉ directory)
    (hcalls : ∀ c ∈ calls, c.IsProper) (hf : IsTree f)
    (hrun : ∀ c : Call, c.IsProper → ∀ files, IsTree files → holds (c.run directory files)) :
    ∀ e ∈ session directory f calls, holds e := by
  induction calls generalizing f with
  | nil => exact nofun
  | cons c calls ih =>
    rw [List.forall_mem_cons] at hcalls
    rw [session, List.forall_mem_cons]
    exact ⟨hrun c hcalls.1 f hf, ih hcalls.2 (isTree_run hdirectory hcalls.1 hf)⟩

/-- An export that has failed matters to later ones only where it has made directories. -/
theorem session_after_failure (hdirectory : '\x00' ∉ directory) (hc : c.IsProper) (hf : IsTree f)
    (hfailed : ∃ error, (c.run directory f).result = .error error)
    (hcalls : ∀ c' ∈ calls, c'.IsProper)
    (hplaces : ∀ c' ∈ calls, ∀ x ∈ c'.places directory f, ¬ (c.run directory f).HasMade x) :
    List.Forall₂ Event.SameOutcome (session directory f calls)
      (session directory (c.run directory f).after calls) := by
  obtain ⟨error, hfailed⟩ := hfailed
  rcases isAtomic_run hdirectory hc f with ⟨hok, -⟩ | ⟨fault, -, hadds⟩
  · cases hfailed.symm.trans hok
  · refine session_mono hdirectory hcalls hf (isTree_run hdirectory hc hf) hadds ?_
    intro c' hc' x hx
    rcases hadds.untouched x with hsame | hmade
    · exact hsame
    · exact absurd hmade (hplaces c' hc' x hx)

/-- Nothing is exported to a directory, or below a file. -/
theorem run_fails_of_blocked (hdirectory : '\x00' ∉ directory) (hc : c.IsProper) (hf : IsTree f)
    (h : IsBlocked f (c.path directory)) : ∃ error, (c.run directory f).result = .error error := by
  have hparts := nil_not_mem_path c directory
  rcases placeInSteps_in_tree hf hc.2 (not_hasNul_path hdirectory hc) hparts c.trouble c.text with
    ⟨hadmits, -⟩ | ⟨-, fault, hfault, hplace⟩
  · exact absurd hadmits (not_admits_of_blocked hf hparts h)
  · exact ⟨_, congrArg Event.result (run_of_some hplace hfault)⟩

end Session

/-- Every export of a session, whatever troubles it, is found at its path as a whole or fails and
    changes no file; undisturbed, it is what writing the program does.  It fails onto a directory
    and below a file.  One that has failed changes nothing about exports from then on, unless they
    go to a directory that has been made for it. -/
theorem session_atomic (directory : Text) (files : Files) (calls : List Call)
    (hdirectory : '\x00' ∉ directory) (hcalls : ∀ c ∈ calls, c.IsProper)
    (hfiles : IsTree files) :
    ∀ e ∈ session directory files calls,
      e.IsAtomic directory ∧
      (e.call.IsClear directory e.before → e.result = (write directory e.call.name e.call.text
          e.before).1.result ∧ e.after = (write directory e.call.name e.call.text e.before).2) ∧
      (IsBlocked e.before (e.call.path directory) → ∃ error, e.result = .error error) ∧
      ((∃ error, e.result = .error error) → ∀ later : List Call, (∀ c ∈ later, c.IsProper) →
        (∀ c ∈ later, ∀ x ∈ c.places directory e.before, ¬ e.HasMade x) →
        List.Forall₂ Event.SameOutcome (session directory e.before later)
          (session directory e.after later)) := by
  refine forall_mem_session hdirectory hcalls hfiles fun c hc f hf => ⟨?_, ?_, ?_, ?_⟩
  · exact isAtomic_run hdirectory hc f
  · intro hclear
    have hclear : c.IsClear directory f := hclear
    rw [run_eq_write hc hclear]
    exact ⟨rfl, rfl⟩
  · exact run_fails_of_blocked hdirectory hc hf
  · intro hfailed later hlater hplaces
    exact session_after_failure hdirectory hc hf hfailed hlater hplaces

/-- A directory with a program in it. -/
def workshop : Files := (Files.empty ["w"]).put ["w", "old.c"] (.file [])

/-- A program for a new directory, with trouble when it is put in its place. -/
def struck : Call := ⟨"t", "d/x.c", "aaaaaaaa", .replacing⟩

/-- A program in the place of the one that is there. -/
def renewed : Call := ⟨"u", "old.c", "bbbbbbbb", .none⟩

/-- A program in the place of the directory that has been made. -/
def misplaced : Call := ⟨"v", "d", "cccccccc", .none⟩

theorem session_atomic_workshop :
    '\x00' ∉ ([] : Text) ∧ (∀ c ∈ [struck, renewed, misplaced], c.IsProper) ∧ IsTree workshop ∧
      ∃ first second third,
        session [] workshop [struck, renewed, misplaced] = [first, second, third] ∧
        (∃ error, first.result = .error error) ∧ first.IsAtomic [] ∧
        List.Forall₂ Event.SameOutcome (session [] workshop [renewed])
          (session [] first.after [renewed]) ∧
        renewed.IsClear [] second.before ∧
        second.result = (write [] "old.c" "u" second.before).1.result ∧
        IsBlocked third.before (misplaced.path []) ∧ ∃ error, third.result = .error error := by
  have hrenewed : renewed.IsProper := ⟨by decide, rfl, rfl⟩
  have hproper : ∀ c ∈ [struck, renewed, misplaced], c.IsProper := by
    simp only [List.forall_mem_cons]
    exact ⟨⟨by decide, rfl, rfl⟩, hrenewed, ⟨by decide, rfl, rfl⟩, nofun⟩
  have htree : IsTree ((Files.empty ["w"]).put (["w"] ++ ["old.c"]) (.file [])) :=
    (Files.isTree_empty ["w"]).put rfl (by decide) _
  have hall := session_atomic [] workshop [struck, renewed, misplaced] (by decide) hproper htree
  simp only [session, List.forall_mem_cons] at hall
  obtain ⟨⟨hatomic, -, -, hlater⟩, ⟨-, hwrite, -⟩, ⟨-, -, hblocked, -⟩, -⟩ := hall
  refine ⟨by decide, hproper, htree, _, _, _, rfl, ?_⟩
  have hfailed : ∃ error, (struck.run [] workshop).result = .error error :=
    ⟨.fileRefused "d/x.c" (.os .refused), rfl⟩
  have hclear : renewed.IsClear [] (struck.run [] workshop).after := by
    refine ⟨rfl, trivial, ?_⟩
    rintro above ⟨⟩
    rfl
  have hplaces : ∀ x ∈ renewed.places [] workshop, ¬ (struck.run [] workshop).HasMade x := by
    simp only [Call.places, List.forall_mem_cons]
    exact ⟨fun h => (nomatch h.1), fun h => (nomatch h.2), nofun⟩
  have hdirectory : IsBlocked (renewed.run [] (struck.run [] workshop).after).after
      (misplaced.path []) := .inl rfl
  refine ⟨hfailed, hatomic, ?_, hclear, (hwrite hclear).1, hdirectory, hblocked hdirectory⟩
  exact hlater hfailed [renewed] (List.forall_mem_singleton.2 hrenewed)
    (List.forall_mem_singleton.2 hplaces)

/-- A directory that stays after an export has failed is in the way of a program of that name; and
    a NUL in the name of the directory is not refused as a file is. -/
theorem write_onto_left_directory :
    (write [] "d/.." "t" (Files.empty [])).1.result =
        .error (.fileRefused "d/.." (.os .isDirectory)) ∧
      (write [] "d" "u" (Files.empty [])).1.result = .ok (Path.ofText "d") ∧
      (write [] "d" "u" (write [] "d/.." "t" (Files.empty [])).2).1.result =
        .error (.fileRefused "d" (.os .isDirectory)) ∧
      (write "a\x00" "x.c" "t" (Files.empty [])).1.result = .error (.value .unnameable) :=
  ⟨rfl, rfl, rfl, rfl⟩

end Tracewright.Export
