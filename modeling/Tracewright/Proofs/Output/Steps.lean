/-
  Tracewright.Proofs.Output.Steps

  Placing a program step by step: the directories, a temporary file beside the
  target, its bytes, and then the renaming.  Trouble from outside can strike
  at each step; the temporary file is taken away when it does.

    * `Trouble`        — where trouble strikes.
    * `placeInSteps`   — the steps.
    * `IsClear`        — nothing from outside is in the way.
    * `placeInSteps_of_clear`, `placeInSteps_of_not_clear`
                       — the steps come to what `place` does, or to a refusal
                         that leaves nothing behind.
-/
import Tracewright.Output.Export
import Tracewright.Proofs.Files.Directories

namespace Tracewright

/-! ## Temporary files -/

namespace Files

variable {f : Files} {x : Location}

/-- Takes away the node at a location. -/
def unlink (f : Files) (at_ : Location) : Files :=
  { f with nodes := f.nodes.filter fun e => e.1 != at_ }

theorem filter_of_lookup {l : List (Location × Node)} (h : l.lookup x = none) :
    (l.filter fun e => e.1 != x) = l := by
  rw [List.filter_eq_self]
  intro e he
  have hne := List.lookup_eq_none_iff.1 h e he
  rw [bne_iff_ne]
  rintro rfl
  simp at hne

/-- A node that has been put where there was nothing leaves nothing when it is taken away. -/
theorem unlink_put (hx : x ≠ []) (h : f.get? x = none) (n : Node) : (f.put x n).unlink x = f := by
  rw [get?, if_neg hx] at h
  have hnodes : (((x, n) :: f.nodes.filter fun e => e.1 != x).filter fun e => e.1 != x) =
      f.nodes := by
    rw [List.filter_cons_of_neg (by simp), List.filter_filter]
    simp only [Bool.and_self]
    exact filter_of_lookup h
  rw [unlink, put, hnodes]

theorem put_put (f : Files) (x : Location) (n n' : Node) : (f.put x n).put x n' = f.put x n' := by
  rw [put, put, put, List.filter_cons_of_neg (by simp), List.filter_filter]
  simp only [Bool.and_self]

end Files

namespace Export

open Files (AddsDirectories HasNul locateParent_ne_unnameable nameLimit pathLimit pathLength
  temporaryRoom)

/-! ## Steps -/

/-- Trouble from outside, and where it strikes. -/
inductive Trouble where
  | none
  /-- Only the directories of the first parts have been made. -/
  | directories (parts : Nat)
  | creation
  /-- Only the first bytes have been written. -/
  | filling (bytes : Nat)
  | replacing
  deriving DecidableEq

/-- The name of a temporary file beside a file. -/
def temporaryName (name random : Text) : Text :=
  ("." : Text) ++ name ++ random ++ (".tmp" : Text)

def makeParents (trouble : Trouble) (f : Files) (p : Path) : Files × Option OsFault :=
  match trouble with
  | .directories parts => ((f.makeDirectories ⟨p.root, p.parts.take parts⟩).1, some .refused)
  | _ => f.makeDirectories p

/-- Where a temporary file can be created beside a path; a name that is taken is refused. -/
def createTemporary (trouble : Trouble) (f : Files) (p : Path) (random : Text) :
    Except OsFault Location := do
  let above ← f.locateParent p
  let name := temporaryName p.name random
  if trouble = .creation then .error .refused
  else if name.contains '\x00' then .error .unnameable
  else if Files.isTooLong name then .error .nameTooLong
  else if pathLimit ≤ pathLength ((f.absolute p.parent).join ⟨[], [name]⟩) then
    .error .nameTooLong
  else if (f.get? (above ++ [name])).isSome then .error .alreadyExists
  else .ok above

/-- What has been written of some bytes, and what stopped it. -/
def taken (trouble : Trouble) (bytes : List UInt8) : List UInt8 × Option OsFault :=
  match trouble with
  | .filling count => (bytes.take count, some .refused)
  | _ => (bytes, none)

/-- Puts the node of one location in the place of a path; a directory is not replaced. -/
def rename (trouble : Trouble) (f : Files) (temporary : Location) (p : Path) (at_ : Location) :
    Except OsFault Files :=
  if trouble = .replacing then .error .refused
  else if pathLimit ≤ pathLength p then .error .nameTooLong
  else if p.name = [] ∨ p.name = ".." then .error .isDirectory
  else match f.get? temporary, f.get? at_ with
    | none, _ => .error .notFound
    | some _, some .directory => .error .isDirectory
    | some n, _ => .ok ((f.unlink temporary).put at_ n)

/-- Puts a program in the place of the file at a path, step by step. -/
def placeInSteps (trouble : Trouble) (random : Text) (files : Files) (path : Path) (text : Text) :
    Option OsFault × Files :=
  match makeParents trouble files path.parent with
  | (files, some fault) => (some fault, files)
  | (files, none) =>
    match createTemporary trouble files path random with
    | .error fault => (some fault, files)
    | .ok above =>
      let temporary := above ++ [temporaryName path.name random]
      let files := files.put temporary (.file [])
      match taken trouble (Text.Utf8.encode text) with
      | (bytes, some fault) => (some fault, (files.put temporary (.file bytes)).unlink temporary)
      | (bytes, none) =>
        let files := files.put temporary (.file bytes)
        match rename trouble files temporary path (above ++ [path.name]) with
        | .error fault => (some fault, files.unlink temporary)
        | .ok files => (none, files)

/-! ## The directories -/

section Parents

variable {f g : Files} {p : Path} {trouble : Trouble}

theorem addsDirectories_makeParents (trouble : Trouble) (f : Files) (p : Path) :
    AddsDirectories f (makeParents trouble f p).1 := by
  cases trouble <;> exact Files.addsDirectories_makeDirectories f _

theorem makeParents_ne_unnameable (hp : ¬ HasNul p) (trouble : Trouble) (f : Files) :
    (makeParents trouble f p).2 ≠ some .unnameable := by
  cases trouble with
  | directories parts => exact nofun
  | _ => exact Files.makeDirectories_ne_unnameable f hp

theorem makeParents_eq_none (h : makeParents trouble f p = (g, none)) :
    f.makeDirectories p = (g, none) := by
  cases trouble with
  | directories parts => cases h
  | _ => exact h

theorem not_mem_take (hparts : ([] : Text) ∉ p.parts) (count : Nat) :
    ([] : Text) ∉ (Path.mk p.root (p.parts.take count)).parts :=
  fun h => hparts (List.mem_of_mem_take h)

theorem isTree_makeParents (hf : Files.IsTree f) (hparts : ([] : Text) ∉ p.parts)
    (trouble : Trouble) : Files.IsTree (makeParents trouble f p).1 := by
  cases trouble with
  | directories count => exact Files.isTree_makeDirectories hf (not_mem_take hparts count)
  | _ => exact Files.isTree_makeDirectories hf hparts

theorem makeParents_mono (hf : Files.IsTree f) (hg : Files.IsTree g) (h : AddsDirectories f g)
    (hparts : ([] : Text) ∉ p.parts) (trouble : Trouble) :
    (makeParents trouble g p).2.isNone = (makeParents trouble f p).2.isNone ∧
      Files.NoFurther f g (makeParents trouble f p).1 (makeParents trouble g p).1 := by
  cases trouble with
  | directories count =>
    exact ⟨rfl, (Files.makeDirectories_mono hf hg h (not_mem_take hparts count)).2⟩
  | _ => exact Files.makeDirectories_mono hf hg h hparts

end Parents

/-! ## Temporary names -/

/-- What temporary names are made of: as many bytes as there is room for. -/
def IsRandom (random : Text) : Prop :=
  (Text.Utf8.encode random).length = 8 ∧ random.contains '\x00' = false

variable {trouble : Trouble} {random name text : Text} {files made : Files} {path : Path}
  {fault : OsFault} {above : Location}

theorem length_encode_temporaryName (hrandom : IsRandom random) (name : Text) :
    (Text.Utf8.encode (temporaryName name random)).length =
      (Text.Utf8.encode name).length + temporaryRoom := by
  have hbytes : Text.Utf8.encode (temporaryName name random) =
      Text.Utf8.encode "." ++ Text.Utf8.encode name ++ Text.Utf8.encode random ++
        Text.Utf8.encode ".tmp" := by
    rw [temporaryName, Text.Utf8.encode, List.flatMap_append, List.flatMap_append,
      List.flatMap_append]
    rfl
  have hdot : (Text.Utf8.encode ".").length = 1 := by decide
  have hend : (Text.Utf8.encode ".tmp").length = 4 := by decide
  rw [hbytes, List.length_append, List.length_append, List.length_append, hrandom.1, hdot, hend,
    temporaryRoom]
  omega

/-- The temporary file beside a path has room if the path leaves it. -/
theorem pathLength_temporary (hrandom : IsRandom random) (p : Path) (name : Text) :
    pathLength (p.join ⟨[], [temporaryName name random]⟩) =
      pathLength (p.join ⟨[], [name]⟩) + temporaryRoom := by
  obtain ⟨n, hn⟩ := Files.exists_pathLength_concat p.root p.parts
  have hjoin (last : Text) : p.join ⟨[], [last]⟩ = ⟨p.root, p.parts ++ [last]⟩ := rfl
  rw [hjoin, hjoin, hn, hn, length_encode_temporaryName hrandom, Nat.add_assoc]

theorem isTooLong_temporaryName (hrandom : IsRandom random) (name : Text) :
    Files.isTooLong (temporaryName name random) = true ↔
      nameLimit < (Text.Utf8.encode name).length + temporaryRoom := by
  rw [Files.isTooLong, length_encode_temporaryName hrandom, decide_eq_true_iff]

theorem contains_temporaryName (hrandom : IsRandom random) (name : Text) :
    (temporaryName name random).contains '\x00' = name.contains '\x00' := by
  have hnul := hrandom.2
  rw [Bool.eq_iff_iff]
  simp only [temporaryName, List.contains_eq_mem, List.mem_append, decide_eq_true_eq,
    decide_eq_false_iff_not] at hnul ⊢
  have hdot : ¬ '\x00' ∈ (("." : Text)) := by decide
  have hend : ¬ '\x00' ∈ ((".tmp" : Text)) := by decide
  simp only [hdot, hend, hnul, false_or, or_false]

theorem ne_temporaryName (name random : Text) : name ≠ temporaryName name random := by
  intro h
  have hlength := congrArg List.length h
  rw [temporaryName, List.length_append, List.length_append, List.length_append] at hlength
  have hdot : ("." : Text).length = 1 := rfl
  omega

/-! ## The steps together -/

/-- Trouble does not strike after the directories have been made. -/
def Trouble.SparesFile : Trouble → Prop
  | .none | .directories _ => True
  | .creation | .filling _ | .replacing => False

/-- No trouble strikes, and the temporary name is not taken. -/
def IsClear (trouble : Trouble) (random : Text) (made : Files) (path : Path) : Prop :=
  trouble.SparesFile ∧ ∀ above, made.locateParent path = .ok above →
    made.get? (above ++ [temporaryName path.name random]) = none

theorem placeInSteps_of_some (h : makeParents trouble files path.parent = (made, some fault))
    (random text : Text) : placeInSteps trouble random files path text = (some fault, made) := by
  rw [placeInSteps, h]

theorem createTemporary_of_clear (hrandom : IsRandom random)
    (hclear : IsClear trouble random made path) (hparent : made.locateParent path = .ok above) :
    createTemporary trouble made path random =
      if path.name.contains '\x00' then .error .unnameable
      else if nameLimit < (Text.Utf8.encode path.name).length + temporaryRoom then
        .error .nameTooLong
      else if pathLimit ≤
          pathLength ((made.absolute path.parent).join ⟨[], [path.name]⟩) + temporaryRoom then
        .error .nameTooLong
      else .ok above := by
  have hspares : trouble ≠ .creation := by
    rintro rfl
    exact hclear.1
  have hfree := hclear.2 above hparent
  rw [createTemporary, hparent]
  simp only [bind, Except.bind, if_neg hspares, contains_temporaryName hrandom,
    isTooLong_temporaryName hrandom, pathLength_temporary hrandom, hfree, Option.isSome_none,
    Bool.false_eq_true, if_false]

/-- The temporary file takes the place of the target, or it is in the way of nothing. -/
theorem rename_of_clear {trouble : Trouble} (hspares : trouble ≠ .replacing)
    (hfree : made.get? (above ++ [temporaryName path.name random]) = none) (bytes : List UInt8) :
    rename trouble (made.put (above ++ [temporaryName path.name random]) (.file bytes))
        (above ++ [temporaryName path.name random]) path (above ++ [path.name]) =
      if pathLimit ≤ pathLength path then .error .nameTooLong
      else if path.name = [] ∨ path.name = ".." then .error .isDirectory
      else match made.get? (above ++ [path.name]) with
        | some .directory => .error .isDirectory
        | _ => .ok (made.put (above ++ [path.name]) (.file bytes)) := by
  have hne := Files.concat_ne_nil above (temporaryName path.name random)
  have hother : above ++ [path.name] ≠ above ++ [temporaryName path.name random] := by
    intro h
    have hname := List.append_cancel_left h
    exact ne_temporaryName path.name random (List.head_eq_of_cons_eq hname)
  rw [rename, if_neg hspares, Files.get?_put_self hne, Files.get?_put_of_ne hother,
    Files.unlink_put hne hfree]
  -- a path that is refused is so on both sides
  split_ifs
  · rfl
  · rfl
  · cases made.get? (above ++ [path.name]) with
    | none => rfl
    | some n => cases n <;> rfl

/-- A file that has been written under a temporary name is renamed, or it is taken away. -/
theorem placeInSteps_of_created {trouble : Trouble}
    (h : makeParents trouble files path.parent = (made, none))
    (hcreate : createTemporary trouble made path random = .ok above)
    (hspares : trouble.SparesFile)
    (hfree : made.get? (above ++ [temporaryName path.name random]) = none) (text : Text) :
    placeInSteps trouble random files path text =
      if pathLimit ≤ pathLength path then (some .nameTooLong, made)
      else if path.name = [] ∨ path.name = ".." then (some .isDirectory, made)
      else match made.get? (above ++ [path.name]) with
        | some .directory => (some .isDirectory, made)
        | _ => (none, made.put (above ++ [path.name]) (.file (Text.Utf8.encode text))) := by
  have hne := Files.concat_ne_nil above (temporaryName path.name random)
  have hgone (n : Node) : (made.put (above ++ [temporaryName path.name random]) n).unlink
      (above ++ [temporaryName path.name random]) = made := Files.unlink_put hne hfree n
  have hreplacing : trouble ≠ .replacing := by
    rintro rfl
    exact hspares
  have htaken : taken trouble (Text.Utf8.encode text) = (Text.Utf8.encode text, none) := by
    cases trouble with
    | filling count => exact absurd hspares id
    | _ => rfl
  rw [placeInSteps, h]
  simp only [hcreate, htaken, Files.put_put, rename_of_clear hreplacing hfree]
  -- a file that is not renamed is taken away
  by_cases hlength : pathLimit ≤ pathLength path
  · simp only [if_pos hlength, hgone]
  by_cases hlast : path.name = [] ∨ path.name = ".."
  · simp only [if_neg hlength, if_pos hlast, hgone]
  simp only [if_neg hlength, if_neg hlast]
  cases made.get? (above ++ [path.name]) with
  | none => rfl
  | some n =>
    cases n with
    | file _ => rfl
    | directory => simp only [hgone]

/-- With nothing in the way, a file is put in its place as a whole, or refused. -/
theorem placeInSteps_of_clear (hrandom : IsRandom random)
    (h : makeParents trouble files path.parent = (made, none))
    (hclear : IsClear trouble random made path) (text : Text) :
    placeInSteps trouble random files path text =
      match made.replace path (Text.Utf8.encode text) with
      | .error fault => (some fault, made)
      | .ok files => (none, files) := by
  cases hparent : made.locateParent path with
  | error fault =>
    rw [placeInSteps, h]
    simp only
    rw [createTemporary, Files.replace, hparent]
    rfl
  | ok above =>
    have hcreate := createTemporary_of_clear hrandom hclear hparent
    -- a temporary file that is refused
    have hrefused {fault : OsFault} (hfault : createTemporary trouble made path random =
        .error fault) : placeInSteps trouble random files path text = (some fault, made) := by
      rw [placeInSteps, h]
      simp only [hfault]
    rw [Files.replace, hparent]
    simp only [bind, Except.bind, Files.leavesNoRoom, Bool.or_eq_true, decide_eq_true_eq]
    by_cases hnul : path.name.contains '\x00' = true
    · rw [if_pos hnul] at hcreate
      simp only [hrefused hcreate, if_pos hnul]
    rw [if_neg hnul] at hcreate
    by_cases hlong : nameLimit < (Text.Utf8.encode path.name).length + temporaryRoom
    · rw [if_pos hlong] at hcreate
      simp only [hrefused hcreate, if_neg hnul, if_pos hlong]
    rw [if_neg hlong] at hcreate
    by_cases hroom : pathLimit ≤
        pathLength ((made.absolute path.parent).join ⟨[], [path.name]⟩) + temporaryRoom
    · rw [if_pos hroom] at hcreate
      simp only [hrefused hcreate, if_neg hnul, if_neg hlong, if_pos (Or.inl hroom)]
    rw [if_neg hroom] at hcreate
    rw [placeInSteps_of_created h hcreate hclear.1 (hclear.2 above hparent)]
    -- one that is created comes to the file, or the path takes none
    simp only [if_neg hnul, if_neg hlong, hroom, false_or]
    split_ifs with hlength hlast
    · rfl
    · rfl
    · cases made.get? (above ++ [path.name]) with
      | none => rfl
      | some n => cases n <;> rfl

/-- A temporary file that can be created has a name that was free. -/
theorem createTemporary_cases (hrandom : IsRandom random) (hp : ¬ HasNul path)
    (trouble : Trouble) (made : Files) :
    (∃ fault, fault ≠ .unnameable ∧ createTemporary trouble made path random = .error fault) ∨
    ∃ above, createTemporary trouble made path random = .ok above ∧
      made.locateParent path = .ok above ∧ trouble ≠ .creation ∧
      made.get? (above ++ [temporaryName path.name random]) = none := by
  cases hparent : made.locateParent path with
  | error fault =>
    refine .inl ⟨fault, ?_, by rw [createTemporary, hparent]; rfl⟩
    rintro rfl
    exact locateParent_ne_unnameable hp hparent
  | ok above =>
    rw [createTemporary, hparent]
    simp only [bind, Except.bind, contains_temporaryName hrandom, Files.not_contains_name hp,
      Bool.false_eq_true, if_false]
    -- each check has its fault; after all of them the name is free
    split_ifs with hcreation hlong hroom htaken
    · exact .inl ⟨.refused, nofun, rfl⟩
    · exact .inl ⟨.nameTooLong, nofun, rfl⟩
    · exact .inl ⟨.nameTooLong, nofun, rfl⟩
    · exact .inl ⟨.alreadyExists, nofun, rfl⟩
    · exact .inr ⟨above, rfl, rfl, hcreation, Option.not_isSome_iff_eq_none.1 htaken⟩

/-- With trouble in the way, nothing is left but the directories. -/
theorem placeInSteps_of_not_clear (hrandom : IsRandom random) (hp : ¬ HasNul path)
    (h : makeParents trouble files path.parent = (made, none))
    (hclear : ¬ IsClear trouble random made path) (text : Text) :
    ∃ fault, fault ≠ .unnameable ∧
      placeInSteps trouble random files path text = (some fault, made) := by
  rw [placeInSteps, h]
  simp only
  rcases createTemporary_cases hrandom hp trouble made with
    ⟨fault, hfault, hcreate⟩ | ⟨above, hcreate, hparent, hcreation, hfree⟩
  · exact ⟨fault, hfault, by rw [hcreate]⟩
  · have hne := Files.concat_ne_nil above (temporaryName path.name random)
    have hgone (n : Node) : (made.put (above ++ [temporaryName path.name random]) n).unlink
        (above ++ [temporaryName path.name random]) = made := Files.unlink_put hne hfree n
    have hspares : ¬ trouble.SparesFile := by
      intro hspares
      refine hclear ⟨hspares, fun above' habove' => ?_⟩
      cases hparent.symm.trans habove'
      exact hfree
    rw [hcreate]
    -- what is left is trouble while the file is written, or when it is renamed
    cases trouble with
    | none => exact absurd trivial hspares
    | directories parts => exact absurd trivial hspares
    | creation => exact absurd rfl hcreation
    | filling count =>
      refine ⟨.refused, nofun, ?_⟩
      simp only [taken, Files.put_put, hgone]
    | replacing =>
      refine ⟨.refused, nofun, ?_⟩
      simp only [taken, rename, Files.put_put, if_true, hgone]

/-- Without trouble, and under a temporary name that is free, the steps do what `place` does. -/
theorem placeInSteps_eq_place (hrandom : IsRandom random)
    (hclear : IsClear .none random (files.makeDirectories path.parent).1 path) (text : Text) :
    placeInSteps .none random files path text = place files path text := by
  have hparents : makeParents .none files path.parent = files.makeDirectories path.parent := rfl
  rcases hmake : files.makeDirectories path.parent with ⟨made, _ | fault⟩
  · rw [hmake] at hclear
    rw [place, hmake]
    exact placeInSteps_of_clear hrandom (hparents.trans hmake) hclear text
  · rw [placeInSteps_of_some (hparents.trans hmake), place, hmake]

end Export

end Tracewright
