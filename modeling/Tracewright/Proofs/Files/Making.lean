/-
  Tracewright.Proofs.Files.Making

  Making the directories of a path, as a walk that makes what is missing.  It
  ends where the names say, whatever there was before, and stops only in front
  of a file or of a name that is too long.

    * `IsTree`         — every node stands in a directory.
    * `way_cases`      — what a walk can meet, and one lemma for each of it.
    * `walk_cons_eq_ok` — what the first step of a walk that arrives can be.
    * `makeAlong`      — the walk that makes what is missing.
    * `makeAlong_eq_some` — where it ends.
    * `makeAlong_mono` — directories that are there already do not change that,
                         and the trees become no more different.
-/
import Tracewright.Proofs.Files.Tree

namespace Tracewright.Files

variable {f g : Files} {here above e x home : Location} {parts p q rest : List Text}
  {part part' name : Text} {bytes : List UInt8} {fault : OsFault} {n : Node}

/-! ## Trees -/

/-- Every node stands in a directory, and the working directory is there. -/
structure IsTree (f : Files) : Prop where
  home : f.get? f.home = some .directory
  above : ∀ x n, f.get? x = some n → f.get? x.dropLast = some .directory

theorem IsTree.start (hf : IsTree f) (path : Path) : f.get? (f.start path) = some .directory := by
  rw [Files.start]
  split_ifs
  · exact hf.home
  · exact get?_nil

theorem concat_ne_nil (here : Location) (part : Text) : here ++ [part] ≠ [] :=
  List.append_ne_nil_of_right_ne_nil _ (List.cons_ne_nil _ _)

/-- A node that is put into a directory leaves a tree, unless it takes the place of one. -/
theorem IsTree.put (hf : IsTree f) (habove : f.get? above = some .directory)
    (hfree : f.get? (above ++ [name]) ≠ some .directory) (n : Node) :
    IsTree (f.put (above ++ [name]) n) := by
  -- a directory that was there is somewhere else
  have hkeep (y : Location) (hy : f.get? y = some .directory) :
      (f.put (above ++ [name]) n).get? y = some .directory := by
    have hne : y ≠ above ++ [name] := by
      rintro rfl
      exact hfree hy
    rw [get?_put_of_ne hne, hy]
  refine ⟨hkeep f.home hf.home, fun x n' hx => ?_⟩
  by_cases hat : x = above ++ [name]
  · rw [hat, List.dropLast_concat]
    exact hkeep above habove
  · rw [get?_put_of_ne hat] at hx
    exact hkeep _ (hf.above x n' hx)

/-- At first there is nothing but the working directory and what it is in. -/
theorem get?_empty_iff :
    (empty home).get? x = some n ↔ n = .directory ∧ ∃ count ≤ home.length, x = home.take count := by
  have hlookup (counts : List Nat) :
      (counts.map fun k => (home.take (k + 1), Node.directory)).lookup x = some n ↔
        n = .directory ∧ ∃ k ∈ counts, x = home.take (k + 1) := by
    induction counts with
    | nil => simp
    | cons k counts ih =>
      rw [List.map_cons, List.lookup_cons]
      by_cases hx : x = home.take (k + 1)
      · rw [beq_iff_eq.2 hx]
        exact ⟨fun h => ⟨(Option.some.inj h).symm, k, List.mem_cons_self, hx⟩,
          fun h => congrArg some h.1.symm⟩
      · rw [beq_eq_false_iff_ne.2 hx, ih]
        simp [hx]
  by_cases hx : x = []
  · rw [hx, get?_nil]
    exact ⟨fun h => ⟨(Option.some.inj h).symm, 0, Nat.zero_le _, rfl⟩,
      fun h => congrArg some h.1.symm⟩
  · rw [get?, if_neg hx, empty, hlookup]
    refine and_congr_right fun _ => ?_
    constructor
    · rintro ⟨k, hk, hat⟩
      exact ⟨k + 1, List.mem_range.1 hk, hat⟩
    · rintro ⟨count, hcount, hat⟩
      cases count with
      | zero => exact absurd hat hx
      | succ k => exact ⟨k, List.mem_range.2 hcount, hat⟩

theorem isTree_empty (home : Location) : IsTree (empty home) := by
  refine ⟨get?_empty_iff.2 ⟨rfl, home.length, Nat.le_refl _, List.take_length.symm⟩,
    fun x n hx => ?_⟩
  obtain ⟨-, count, hcount, rfl⟩ := get?_empty_iff.1 hx
  refine get?_empty_iff.2 ⟨rfl, count - 1, by omega, ?_⟩
  have hshort : min (min count home.length - 1) count = count - 1 := by omega
  rw [List.dropLast_eq_take, List.length_take, List.take_take, hshort]

/-! ## What a walk meets -/

/-- The name goes down, and it is not too long for that. -/
def GoesDown (part : Text) : Prop := part ≠ ".." ∧ isTooLong part = false

/-- A walk goes up, or stops in front of a name that is too long, or meets nothing, a file or a
    directory. -/
theorem way_cases (f : Files) (here : Location) (part : Text) :
    part = ".." ∨ (part ≠ ".." ∧ isTooLong part = true) ∨
    (GoesDown part ∧ f.get? (here ++ [part]) = none) ∨
    (GoesDown part ∧ ∃ bytes, f.get? (here ++ [part]) = some (.file bytes)) ∨
    (GoesDown part ∧ f.get? (here ++ [part]) = some .directory) := by
  by_cases hup : part = ".."
  · exact .inl hup
  cases hlong : isTooLong part with
  | true => exact .inr (.inl ⟨hup, rfl⟩)
  | false =>
    rcases f.get? (here ++ [part]) with _ | bytes | _
    · exact .inr (.inr (.inl ⟨⟨hup, hlong⟩, rfl⟩))
    · exact .inr (.inr (.inr (.inl ⟨⟨hup, hlong⟩, bytes, rfl⟩)))
    · exact .inr (.inr (.inr (.inr ⟨⟨hup, hlong⟩, rfl⟩)))

theorem walk_up (f : Files) (here : Location) (rest : List Text) :
    f.walk here ((".." : Text) :: rest) = f.walk here.dropLast rest := by
  rw [walk, if_pos rfl]

theorem walk_of_tooLong (hup : part ≠ "..") (hlong : isTooLong part = true) (rest : List Text) :
    f.walk here (part :: rest) = .error .nameTooLong := by
  rw [walk, if_neg hup, if_pos hlong]

theorem walk_of_missing (hdown : GoesDown part) (hget : f.get? (here ++ [part]) = none)
    (rest : List Text) : f.walk here (part :: rest) = .error .notFound := by
  rw [walk, if_neg hdown.1, hdown.2, hget]
  rfl

theorem walk_of_directory (hdown : GoesDown part)
    (hget : f.get? (here ++ [part]) = some .directory) (rest : List Text) :
    f.walk here (part :: rest) = f.walk (here ++ [part]) rest := by
  rw [walk, if_neg hdown.1, hdown.2, hget]
  rfl

theorem walk_of_file (hdown : GoesDown part) (hget : f.get? (here ++ [part]) = some (.file bytes)) :
    f.walk here [part] = .ok (here ++ [part]) := by
  rw [walk, if_neg hdown.1, hdown.2, hget]
  rfl

theorem walk_below_file (hdown : GoesDown part)
    (hget : f.get? (here ++ [part]) = some (.file bytes)) (hrest : rest ≠ []) :
    f.walk here (part :: rest) = .error .notDirectory := by
  rw [walk, if_neg hdown.1, hdown.2, hget, List.isEmpty_eq_false_iff.2 hrest]
  rfl

/-- A walk that meets a file ends there or fails. -/
theorem walk_at_file (hdown : GoesDown part) (hget : f.get? (here ++ [part]) = some (.file bytes))
    (rest : List Text) :
    (rest = [] ∧ f.walk here (part :: rest) = .ok (here ++ [part])) ∨
      f.walk here (part :: rest) = .error .notDirectory := by
  by_cases hrest : rest = []
  · rw [hrest]
    exact .inl ⟨rfl, walk_of_file hdown hget⟩
  · exact .inr (walk_below_file hdown hget hrest)

/-- What the first step of a walk that arrives can be: up, into a directory, or to a file that is
    the end. -/
theorem walk_cons_eq_ok (h : f.walk here (part :: rest) = .ok e) :
    (part = ".." ∧ f.walk here.dropLast rest = .ok e) ∨
    (GoesDown part ∧ f.get? (here ++ [part]) = some .directory ∧
      f.walk (here ++ [part]) rest = .ok e) ∨
    (GoesDown part ∧ rest = [] ∧ e = here ++ [part] ∧
      ∃ bytes, f.get? (here ++ [part]) = some (.file bytes)) := by
  rcases f.way_cases here part with rfl | ⟨hup, hlong⟩ | ⟨hdown, hget⟩ | ⟨hdown, bytes, hget⟩ |
    ⟨hdown, hget⟩
  · rw [walk_up] at h
    exact .inl ⟨rfl, h⟩
  · rw [walk_of_tooLong hup hlong] at h
    cases h
  · rw [walk_of_missing hdown hget] at h
    cases h
  · rcases walk_at_file hdown hget rest with ⟨hend, hat⟩ | hat
    · cases hat.symm.trans h
      exact .inr (.inr ⟨hdown, hend, rfl, bytes, hget⟩)
    · cases hat.symm.trans h
  · rw [walk_of_directory hdown hget] at h
    exact .inr (.inl ⟨hdown, hget, h⟩)

/-! ## Walks that go on -/

/-- A walk to a directory goes on from there. -/
theorem walk_append_of_directory (hwalk : f.walk here p = .ok e)
    (he : f.get? e = some .directory) (q : List Text) : f.walk here (p ++ q) = f.walk e q := by
  induction p generalizing here with
  | nil =>
    cases hwalk
    rfl
  | cons part p ih =>
    rw [List.cons_append]
    rcases walk_cons_eq_ok hwalk with ⟨rfl, hrest⟩ | ⟨hdown, hget, hrest⟩ |
      ⟨hdown, rfl, rfl, bytes, hget⟩
    · rw [walk_up]
      exact ih hrest
    · rw [walk_of_directory hdown hget]
      exact ih hrest
    · cases hget.symm.trans he

/-- A walk that fails does so before it could go on. -/
theorem walk_append_of_error (hwalk : f.walk here p = .error fault) (q : List Text) :
    f.walk here (p ++ q) = .error fault := by
  induction p generalizing here with
  | nil => cases hwalk
  | cons part p ih =>
    rw [List.cons_append]
    rcases f.way_cases here part with rfl | ⟨hup, hlong⟩ | ⟨hdown, hget⟩ | ⟨hdown, bytes, hget⟩ |
      ⟨hdown, hget⟩
    · rw [walk_up] at hwalk ⊢
      exact ih hwalk
    · rw [walk_of_tooLong hup hlong] at hwalk ⊢
      exact hwalk
    · rw [walk_of_missing hdown hget] at hwalk ⊢
      exact hwalk
    · -- a walk that ends at the file would have arrived
      have hp : p ≠ [] := by
        rintro rfl
        cases (walk_of_file hdown hget).symm.trans hwalk
      rw [walk_below_file hdown hget hp] at hwalk
      rw [walk_below_file hdown hget (List.append_ne_nil_of_left_ne_nil hp q), hwalk]
    · rw [walk_of_directory hdown hget] at hwalk ⊢
      exact ih hwalk

/-- Nothing is below a file. -/
theorem walk_append_of_file (hf : IsTree f) (hhere : f.get? here = some .directory)
    (hwalk : f.walk here p = .ok e) (he : f.get? e = some (.file bytes)) (hq : q ≠ []) :
    f.walk here (p ++ q) = .error .notDirectory := by
  induction p generalizing here with
  | nil =>
    cases hwalk
    cases hhere.symm.trans he
  | cons part p ih =>
    rw [List.cons_append]
    rcases walk_cons_eq_ok hwalk with ⟨rfl, hrest⟩ | ⟨hdown, hget, hrest⟩ |
      ⟨hdown, rfl, rfl, bytes', hget⟩
    · rw [walk_up]
      exact ih (hf.above _ _ hhere) hrest
    · rw [walk_of_directory hdown hget]
      exact ih hget hrest
    · exact walk_below_file hdown hget hq

/-- What a walk ends at is there. -/
theorem exists_get?_of_walk (hf : IsTree f) (hhere : f.get? here = some .directory)
    (hwalk : f.walk here parts = .ok e) : ∃ n, f.get? e = some n := by
  induction parts generalizing here with
  | nil =>
    cases hwalk
    exact ⟨_, hhere⟩
  | cons part parts ih =>
    rcases walk_cons_eq_ok hwalk with ⟨rfl, hrest⟩ | ⟨-, hget, hrest⟩ | ⟨-, -, rfl, bytes, hget⟩
    · exact ih (hf.above _ _ hhere) hrest
    · exact ih hget hrest
    · exact ⟨_, hget⟩

/-! ## Making what is missing -/

/-- Walks from `here` through the parts of a path, and makes the directories that are missing;
    there is no end in front of a file, and in front of a name that is too long. -/
def makeAlong (f : Files) (here : Location) : List Text → Files × Option Location
  | [] => (f, some here)
  | part :: rest =>
    if part = ".." then makeAlong f here.dropLast rest
    else if isTooLong part then (f, none)
    else match f.get? (here ++ [part]) with
      | none => makeAlong (f.put (here ++ [part]) .directory) (here ++ [part]) rest
      | some .directory => makeAlong f (here ++ [part]) rest
      | some (.file _) => (f, none)

theorem makeAlong_up (f : Files) (here : Location) (rest : List Text) :
    f.makeAlong here ((".." : Text) :: rest) = f.makeAlong here.dropLast rest := by
  rw [makeAlong, if_pos rfl]

theorem makeAlong_of_tooLong (hup : part ≠ "..") (hlong : isTooLong part = true)
    (rest : List Text) : f.makeAlong here (part :: rest) = (f, none) := by
  rw [makeAlong, if_neg hup, if_pos hlong]

theorem makeAlong_of_missing (hdown : GoesDown part) (hget : f.get? (here ++ [part]) = none)
    (rest : List Text) : f.makeAlong here (part :: rest) =
      (f.put (here ++ [part]) .directory).makeAlong (here ++ [part]) rest := by
  rw [makeAlong, if_neg hdown.1, hdown.2, hget]
  rfl

theorem makeAlong_of_file (hdown : GoesDown part)
    (hget : f.get? (here ++ [part]) = some (.file bytes)) (rest : List Text) :
    f.makeAlong here (part :: rest) = (f, none) := by
  rw [makeAlong, if_neg hdown.1, hdown.2, hget]
  rfl

theorem makeAlong_of_directory (hdown : GoesDown part)
    (hget : f.get? (here ++ [part]) = some .directory) (rest : List Text) :
    f.makeAlong here (part :: rest) = f.makeAlong (here ++ [part]) rest := by
  rw [makeAlong, if_neg hdown.1, hdown.2, hget]
  rfl

theorem makeAlong_append (f : Files) (here : Location) (p q : List Text) :
    f.makeAlong here (p ++ q) =
      match f.makeAlong here p with
      | (g, none) => (g, none)
      | (g, some e) => g.makeAlong e q := by
  induction p generalizing f here with
  | nil => rfl
  | cons part p ih =>
    rw [List.cons_append]
    rcases f.way_cases here part with rfl | ⟨hup, hlong⟩ | ⟨hdown, hget⟩ | ⟨hdown, bytes, hget⟩ |
      ⟨hdown, hget⟩
    · rw [makeAlong_up, makeAlong_up]
      exact ih f _
    · rw [makeAlong_of_tooLong hup hlong, makeAlong_of_tooLong hup hlong]
    · rw [makeAlong_of_missing hdown hget, makeAlong_of_missing hdown hget]
      exact ih _ _
    · rw [makeAlong_of_file hdown hget, makeAlong_of_file hdown hget]
    · rw [makeAlong_of_directory hdown hget, makeAlong_of_directory hdown hget]
      exact ih f _

/-! ## What it makes -/

theorem addsDirectories_put (hnone : f.get? (here ++ [part]) = none) :
    AddsDirectories f (f.put (here ++ [part]) .directory) := by
  refine ⟨rfl, fun y => ?_⟩
  by_cases hy : y = here ++ [part]
  · rw [hy]
    exact .inr ⟨hnone, get?_put_self (concat_ne_nil here part)⟩
  · exact .inl (get?_put_of_ne hy)

theorem addsDirectories_makeAlong (f : Files) (here : Location) (parts : List Text) :
    AddsDirectories f (f.makeAlong here parts).1 := by
  induction parts generalizing f here with
  | nil => exact .refl f
  | cons part parts ih =>
    -- only where nothing is there something is put
    rcases f.way_cases here part with rfl | ⟨hup, hlong⟩ | ⟨hdown, hget⟩ | ⟨hdown, bytes, hget⟩ |
      ⟨hdown, hget⟩
    · rw [makeAlong_up]
      exact ih f _
    · rw [makeAlong_of_tooLong hup hlong]
      exact .refl f
    · rw [makeAlong_of_missing hdown hget]
      exact (addsDirectories_put hget).trans (ih _ _)
    · rw [makeAlong_of_file hdown hget]
      exact .refl f
    · rw [makeAlong_of_directory hdown hget]
      exact ih f _

/-- What is there stays. -/
theorem AddsDirectories.get?_of_some (h : AddsDirectories f g) (hx : f.get? x = some n) :
    g.get? x = some n := by
  rcases h.untouched x with hsame | ⟨hnone, -⟩
  · rw [hsame, hx]
  · rw [hnone] at hx
    cases hx

/-- A directory that is made where there is nothing leaves a tree. -/
theorem IsTree.put_directory (hf : IsTree f) (hhere : f.get? here = some .directory)
    (hget : f.get? (here ++ [part]) = none) : IsTree (f.put (here ++ [part]) .directory) := by
  refine hf.put hhere ?_ .directory
  rw [hget]
  exact nofun

theorem isTree_makeAlong (hf : IsTree f) (hhere : f.get? here = some .directory)
    (parts : List Text) : IsTree (f.makeAlong here parts).1 := by
  induction parts generalizing f here with
  | nil => exact hf
  | cons part parts ih =>
    -- the walk stands in a directory at every step, and so does what it makes
    rcases f.way_cases here part with rfl | ⟨hup, hlong⟩ | ⟨hdown, hget⟩ | ⟨hdown, bytes, hget⟩ |
      ⟨hdown, hget⟩
    · rw [makeAlong_up]
      exact ih hf (hf.above _ _ hhere)
    · rw [makeAlong_of_tooLong hup hlong]
      exact hf
    · rw [makeAlong_of_missing hdown hget]
      exact ih (hf.put_directory hhere hget) (get?_put_self (concat_ne_nil here part))
    · rw [makeAlong_of_file hdown hget]
      exact hf
    · rw [makeAlong_of_directory hdown hget]
      exact ih hf hget

/-! ## Where it ends -/

/-- Where the names of a path lead, whatever is there. -/
def follow (here : Location) : List Text → Location
  | [] => here
  | part :: rest => follow (if part = ".." then here.dropLast else here ++ [part]) rest

theorem follow_append (here : Location) (p q : List Text) :
    follow here (p ++ q) = follow (follow here p) q := by
  induction p generalizing here with
  | nil => rfl
  | cons part p ih => exact ih _

/-- A walk ends where the names say. -/
theorem eq_follow_of_walk (hwalk : f.walk here parts = .ok e) : e = follow here parts := by
  induction parts generalizing here with
  | nil =>
    cases hwalk
    rfl
  | cons part parts ih =>
    rcases walk_cons_eq_ok hwalk with ⟨rfl, hrest⟩ | ⟨hdown, -, hrest⟩ | ⟨hdown, rfl, rfl, -⟩
    · rw [follow, if_pos rfl]
      exact ih hrest
    · rw [follow, if_neg hdown.1]
      exact ih hrest
    · rw [follow, if_neg hdown.1]
      rfl

/-- The walk ends at a directory, and it can be walked again. -/
theorem makeAlong_eq_some (hf : IsTree f) (hhere : f.get? here = some .directory)
    (h : f.makeAlong here parts = (g, some e)) :
    g.walk here parts = .ok e ∧ g.get? e = some .directory := by
  induction parts generalizing f here with
  | nil =>
    cases h
    exact ⟨rfl, hhere⟩
  | cons part parts ih =>
    -- what has been made behind a directory leaves it there
    have hstep (k : Files) (hk : IsTree k) (hdown : GoesDown part)
        (hpart : k.get? (here ++ [part]) = some .directory)
        (hmake : k.makeAlong (here ++ [part]) parts = (g, some e)) :
        g.walk here (part :: parts) = .ok e ∧ g.get? e = some .directory := by
      obtain ⟨hwalk, he⟩ := ih hk hpart hmake
      have hadds := addsDirectories_makeAlong k (here ++ [part]) parts
      rw [hmake] at hadds
      refine ⟨?_, he⟩
      rw [walk_of_directory hdown (hadds.get?_of_some hpart), hwalk]
    rcases f.way_cases here part with rfl | ⟨hup, hlong⟩ | ⟨hdown, hget⟩ | ⟨hdown, bytes, hget⟩ |
      ⟨hdown, hget⟩
    · rw [makeAlong_up] at h
      rw [walk_up]
      exact ih hf (hf.above _ _ hhere) h
    · rw [makeAlong_of_tooLong hup hlong] at h
      cases h
    · rw [makeAlong_of_missing hdown hget] at h
      exact hstep _ (hf.put_directory hhere hget) hdown (get?_put_self (concat_ne_nil here part)) h
    · rw [makeAlong_of_file hdown hget] at h
      cases h
    · rw [makeAlong_of_directory hdown hget] at h
      exact hstep f hf hdown hget h

/-- Where nothing is missing, nothing is made. -/
theorem makeAlong_of_walk (hwalk : f.walk here parts = .ok e)
    (he : f.get? e = some .directory) : f.makeAlong here parts = (f, some e) := by
  induction parts generalizing here with
  | nil =>
    cases hwalk
    rfl
  | cons part parts ih =>
    rcases walk_cons_eq_ok hwalk with ⟨rfl, hrest⟩ | ⟨hdown, hget, hrest⟩ |
      ⟨-, -, rfl, bytes, hget⟩
    · rw [makeAlong_up]
      exact ih hrest
    · rw [makeAlong_of_directory hdown hget]
      exact ih hrest
    · cases hget.symm.trans he

/-- Where the way leads through something else than directories, nothing is made. -/
theorem makeAlong_of_blocked (hwalk : f.walk here parts = .error fault)
    (hfault : fault ≠ .notFound) : f.makeAlong here parts = (f, none) := by
  induction parts generalizing here with
  | nil => cases hwalk
  | cons part parts ih =>
    rcases f.way_cases here part with rfl | ⟨hup, hlong⟩ | ⟨hdown, hget⟩ | ⟨hdown, bytes, hget⟩ |
      ⟨hdown, hget⟩
    · rw [walk_up] at hwalk
      rw [makeAlong_up]
      exact ih hwalk
    · exact makeAlong_of_tooLong hup hlong parts
    · rw [walk_of_missing hdown hget] at hwalk
      cases hwalk
      exact absurd rfl hfault
    · exact makeAlong_of_file hdown hget parts
    · rw [walk_of_directory hdown hget] at hwalk
      rw [makeAlong_of_directory hdown hget]
      exact ih hwalk

/-- So it is where the way ends at a file. -/
theorem makeAlong_of_walk_file (hf : IsTree f) (hhere : f.get? here = some .directory)
    (hwalk : f.walk here parts = .ok e) (he : f.get? e = some (.file bytes)) :
    f.makeAlong here parts = (f, none) := by
  induction parts generalizing here with
  | nil =>
    cases hwalk
    cases hhere.symm.trans he
  | cons part parts ih =>
    rcases walk_cons_eq_ok hwalk with ⟨rfl, hrest⟩ | ⟨hdown, hget, hrest⟩ |
      ⟨hdown, -, -, bytes', hget⟩
    · rw [makeAlong_up]
      exact ih (hf.above _ _ hhere) hrest
    · rw [makeAlong_of_directory hdown hget]
      exact ih hget hrest
    · exact makeAlong_of_file hdown hget parts

/-! ## In two trees at once -/

/-- Two trees have become no more different: the second one still has directories that the first
    one has not, and nothing else, and they are the same wherever they were. -/
structure NoFurther (f g f' g' : Files) : Prop where
  adds : AddsDirectories f' g'
  same : ∀ x, g.get? x = f.get? x → g'.get? x = f'.get? x

theorem NoFurther.trans {f' g' f'' g'' : Files} (h : NoFurther f g f' g')
    (h' : NoFurther f' g' f'' g'') : NoFurther f g f'' g'' :=
  ⟨h'.adds, fun x hx => h'.same x (h.same x hx)⟩

/-- The same node is put into both trees. -/
theorem NoFurther.put (h : AddsDirectories f g) (here : Location) (part : Text) (n : Node) :
    NoFurther f g (f.put (here ++ [part]) n) (g.put (here ++ [part]) n) := by
  have hne := concat_ne_nil here part
  refine ⟨⟨h.home, fun x => ?_⟩, fun x hx => ?_⟩
  · by_cases hat : x = here ++ [part]
    · rw [hat]
      exact .inl ((get?_put_self hne).trans (get?_put_self hne).symm)
    · rw [Untouched, get?_put_of_ne hat, get?_put_of_ne hat]
      exact h.untouched x
  · by_cases hat : x = here ++ [part]
    · rw [hat, get?_put_self hne, get?_put_self hne]
    · rw [get?_put_of_ne hat, get?_put_of_ne hat, hx]

/-- The first tree gets a directory that the second one has. -/
theorem NoFurther.put_left (h : AddsDirectories f g) (hf : f.get? (here ++ [part]) = none)
    (hg : g.get? (here ++ [part]) = some .directory) :
    NoFurther f g (f.put (here ++ [part]) .directory) g := by
  refine ⟨⟨h.home, fun x => ?_⟩, fun x hx => ?_⟩
  · by_cases hat : x = here ++ [part]
    · rw [hat]
      exact .inl (hg.trans (get?_put_self (concat_ne_nil here part)).symm)
    · rw [Untouched, get?_put_of_ne hat]
      exact h.untouched x
  · have hat : x ≠ here ++ [part] := by
      rintro rfl
      rw [hf, hg] at hx
      cases hx
    rw [get?_put_of_ne hat, hx]

/-- Directories that are there already change nothing about where the walk ends. -/
theorem makeAlong_mono (h : AddsDirectories f g) (here : Location) (parts : List Text) :
    (g.makeAlong here parts).2 = (f.makeAlong here parts).2 ∧
      NoFurther f g (f.makeAlong here parts).1 (g.makeAlong here parts).1 := by
  induction parts generalizing f g here with
  | nil => exact ⟨rfl, h, fun _ hx => hx⟩
  | cons part parts ih =>
    rcases f.way_cases here part with rfl | ⟨hup, hlong⟩ | ⟨hdown, hget⟩ | ⟨hdown, bytes, hget⟩ |
      ⟨hdown, hget⟩
    · rw [makeAlong_up, makeAlong_up]
      exact ih h _
    · rw [makeAlong_of_tooLong hup hlong, makeAlong_of_tooLong hup hlong]
      exact ⟨rfl, h, fun _ hx => hx⟩
    · rw [makeAlong_of_missing hdown hget]
      rcases h.untouched (here ++ [part]) with hsame | ⟨-, hnew⟩
      · rw [makeAlong_of_missing hdown (hsame.trans hget)]
        have hput := NoFurther.put h here part .directory
        obtain ⟨hend, hrest⟩ := ih hput.adds (here ++ [part])
        exact ⟨hend, hput.trans hrest⟩
      · -- only the first tree has to catch up
        rw [makeAlong_of_directory hdown hnew]
        have hput := NoFurther.put_left h hget hnew
        obtain ⟨hend, hrest⟩ := ih hput.adds (here ++ [part])
        exact ⟨hend, hput.trans hrest⟩
    · rw [makeAlong_of_file hdown hget, makeAlong_of_file hdown (h.get?_of_some hget)]
      exact ⟨rfl, h, fun _ hx => hx⟩
    · rw [makeAlong_of_directory hdown hget, makeAlong_of_directory hdown (h.get?_of_some hget)]
      exact ih h _

end Tracewright.Files
