/-
  Tracewright.Proofs.Files.Directories

  Making directories and putting a file into the last one, by way of the walk
  that makes what is missing.

    * `makeDirectories_agrees` — making directories comes to that walk.
    * `Fits`           — a path that a file can be put at, as far as its
                         names go.
    * `replace_cases`  — a file is put at a path that fits, unless a directory
                         stands there.
-/
import Tracewright.Proofs.Files.Making

namespace Tracewright.Files

variable {f g k : Files} {here e : Location} {parts : List Text} {root part : Text}
  {bytes : List UInt8} {fault : OsFault}

/-! ## Paths -/

theorem name_concat (root : Text) (parts : List Text) (part : Text) :
    (Path.mk root (parts ++ [part])).name = part := by
  rw [Path.name, List.getLastD_concat]

theorem parent_concat (root : Text) (parts : List Text) (part : Text) :
    (Path.mk root (parts ++ [part])).parent = ⟨root, parts⟩ := by
  rw [Path.parent, List.dropLast_concat]

/-- A path is not longer than one that goes on. -/
theorem pathLength_le_concat (root : Text) (hparts : parts ≠ [])
    (part : Text) : pathLength ⟨root, parts⟩ ≤ pathLength ⟨root, parts ++ [part]⟩ := by
  -- what is written for more parts goes on from what is written for these
  have hmore : ∃ t : Text, List.intercalate (['/'] : Text) (parts ++ [part]) =
      List.intercalate (['/'] : Text) parts ++ t := by
    clear hparts
    induction parts with
    | nil => exact ⟨part, List.intercalate_singleton⟩
    | cons first parts ih =>
      cases parts with
      | nil =>
        refine ⟨['/'] ++ part, ?_⟩
        rw [List.cons_append, List.nil_append, List.intercalate_cons_cons,
          List.intercalate_singleton, List.intercalate_singleton, List.append_assoc]
      | cons second parts =>
        obtain ⟨t, ht⟩ := ih
        refine ⟨t, ?_⟩
        rw [List.cons_append, List.cons_append, List.intercalate_cons_cons, ← List.cons_append, ht,
          List.intercalate_cons_cons]
        simp only [List.append_assoc]
  obtain ⟨t, ht⟩ := hmore
  have hwrite : (Path.mk root (parts ++ [part])).write = (Path.mk root parts).write ++ t := by
    rw [Path.write, Path.write, if_neg (by simp), if_neg (by simpa using hparts)]
    show root ++ List.intercalate ['/'] (parts ++ [part]) = _
    rw [ht, List.append_assoc]
  have hbytes : Text.Utf8.encode ((Path.mk root parts).write ++ t) =
      Text.Utf8.encode (Path.mk root parts).write ++ Text.Utf8.encode t := List.flatMap_append
  rw [pathLength, pathLength, hwrite, hbytes, List.length_append]
  exact Nat.le_add_right _ _

/-- The last part of a path counts with its own length. -/
theorem exists_pathLength_concat (root : Text) (parts : List Text) : ∃ n, ∀ part : Text,
    pathLength ⟨root, parts ++ [part]⟩ = n + (Text.Utf8.encode part).length := by
  have hfront : ∃ front : Text, ∀ part : Text,
      List.intercalate (['/'] : Text) (parts ++ [part]) = front ++ part := by
    induction parts with
    | nil => exact ⟨[], fun part => List.intercalate_singleton⟩
    | cons first parts ih =>
      obtain ⟨front, hfront⟩ := ih
      refine ⟨first ++ ['/'] ++ front, fun part => ?_⟩
      rw [List.cons_append, List.intercalate_cons_of_ne_nil (by simp), hfront]
      simp only [List.append_assoc]
  obtain ⟨front, hfront⟩ := hfront
  refine ⟨(Text.Utf8.encode (root ++ front)).length, fun part => ?_⟩
  have hwrite : (Path.mk root (parts ++ [part])).write = (root ++ front) ++ part := by
    rw [Path.write, if_neg (by simp), List.append_assoc, ← hfront]
  have hbytes : Text.Utf8.encode ((root ++ front) ++ part) =
      Text.Utf8.encode (root ++ front) ++ Text.Utf8.encode part := List.flatMap_append
  rw [pathLength, hwrite, hbytes, List.length_append]

/-- A path that can be asked about starts with paths that can be. -/
theorem nameable_of_concat (h : nameable ⟨root, parts ++ [part]⟩ = .ok ()) :
    nameable ⟨root, parts⟩ = .ok () := by
  have hnul := nameable_eq_ok h
  rw [List.any_append, Bool.or_eq_false_iff] at hnul
  rw [nameable] at h
  split_ifs at h with hany hlength
  have hshort : ¬ pathLimit ≤ pathLength ⟨root, parts⟩ := by
    by_cases hparts : parts = []
    · subst hparts
      cases root with
      -- the working directory is a dot
      | nil => decide
      | cons c root =>
        have hbytes : Text.Utf8.encode ((c :: root) ++ List.intercalate ['/'] [part]) =
            Text.Utf8.encode (c :: root) ++ Text.Utf8.encode (List.intercalate ['/'] [part]) :=
          List.flatMap_append
        have hle : pathLength ⟨c :: root, []⟩ ≤ pathLength ⟨c :: root, [] ++ [part]⟩ := by
          show (Text.Utf8.encode (c :: root)).length ≤
            (Text.Utf8.encode ((c :: root) ++ List.intercalate ['/'] [part])).length
          rw [hbytes, List.length_append]
          exact Nat.le_add_right _ _
        omega
    · have hle := pathLength_le_concat root hparts part
      omega
  rw [nameable, hnul.1, if_neg Bool.false_ne_true, if_neg hshort]

theorem isDirectory_iff {path : Path} (hname : nameable path = .ok ()) :
    f.isDirectory path = true ↔
      ∃ e, f.walk (f.start path) path.parts = .ok e ∧ f.get? e = some .directory := by
  rw [isDirectory, node, locate, hname]
  simp only [bind, Except.bind]
  cases f.walk (f.start path) path.parts with
  | error fault => simp
  | ok e =>
    rcases hget : f.get? e with _ | bytes | _
    · simp [hget]
    · simp [hget]
    · simp [hget]

/-! ## One directory -/

/-- Making a directory has come to the same as the walk. -/
def Agrees (r : Files × Option OsFault) (r' : Files × Option Location) : Prop :=
  r.1 = r'.1 ∧ r.2.isNone = r'.2.isSome

theorem locateParent_concat (hname : nameable ⟨root, parts⟩ = .ok ()) :
    f.locateParent ⟨root, parts ++ [part]⟩ = (f.walk (f.start ⟨root, []⟩) parts >>= fun at_ =>
      match f.get? at_ with
      | some .directory => .ok at_
      | _ => .error .notDirectory) := by
  rw [locateParent, parent_concat, locate, hname]
  rfl

/-- What is missing or in the way above a directory is what making it fails with. -/
theorem makeDirectory_of_error (hwalk : f.walk (f.start ⟨root, []⟩) parts = .error fault)
    (hname : nameable ⟨root, parts ++ [part]⟩ = .ok ()) :
    f.makeDirectory ⟨root, parts ++ [part]⟩ = .error fault := by
  have hlocate : f.locate ⟨root, parts ++ [part]⟩ = .error fault := by
    rw [locate, hname]
    exact walk_append_of_error hwalk [part]
  have hparent : f.locateParent ⟨root, parts ++ [part]⟩ = .error fault := by
    rw [locateParent_concat (nameable_of_concat hname), hwalk]
    rfl
  rw [makeDirectory, hname, name_concat]
  by_cases hlast : part = [] ∨ part = ".."
  · rw [if_pos hlast, hlocate]
    rfl
  · rw [if_neg hlast, hparent]
    rfl

theorem isDirectory_of_error (hwalk : f.walk (f.start ⟨root, []⟩) parts = .error fault)
    (hname : nameable ⟨root, parts ++ [part]⟩ = .ok ()) :
    f.isDirectory ⟨root, parts ++ [part]⟩ = false := by
  rw [← Bool.not_eq_true, isDirectory_iff hname]
  rintro ⟨e, he, -⟩
  cases (walk_append_of_error hwalk [part]).symm.trans he

/-- Nor is there a directory below a file. -/
theorem makeDirectory_of_file (hf : IsTree f)
    (hwalk : f.walk (f.start ⟨root, []⟩) parts = .ok e) (he : f.get? e = some (.file bytes))
    (hname : nameable ⟨root, parts ++ [part]⟩ = .ok ()) :
    f.makeDirectory ⟨root, parts ++ [part]⟩ = .error .notDirectory ∧
      f.isDirectory ⟨root, parts ++ [part]⟩ = false := by
  have hbelow : f.walk (f.start ⟨root, []⟩) (parts ++ [part]) = .error .notDirectory :=
    walk_append_of_file hf (hf.start _) hwalk he (List.cons_ne_nil _ _)
  have hlocate : f.locate ⟨root, parts ++ [part]⟩ = .error .notDirectory := by
    rw [locate, hname]
    exact hbelow
  have hparent : f.locateParent ⟨root, parts ++ [part]⟩ = .error .notDirectory := by
    rw [locateParent_concat (nameable_of_concat hname), hwalk]
    simp only [bind, Except.bind, he]
  constructor
  · rw [makeDirectory, hname, name_concat]
    by_cases hlast : part = [] ∨ part = ".."
    · rw [if_pos hlast, hlocate]
      rfl
    · rw [if_neg hlast, hparent]
      rfl
  · rw [← Bool.not_eq_true, isDirectory_iff hname]
    rintro ⟨e', he', -⟩
    cases hbelow.symm.trans he'

theorem makeDirectory_in (hname : nameable ⟨root, parts ++ [part]⟩ = .ok ())
    (hparent : f.locateParent ⟨root, parts ++ [part]⟩ = .ok e) (hpart : part ≠ [])
    (hup : part ≠ "..") :
    f.makeDirectory ⟨root, parts ++ [part]⟩ =
      if isTooLong part then .error .nameTooLong
      else match f.get? (e ++ [part]) with
        | some _ => .error .alreadyExists
        | none => .ok (f.put (e ++ [part]) .directory) := by
  rw [makeDirectory, hname, name_concat, if_neg (not_or.2 ⟨hpart, hup⟩), hparent]
  rfl

/-- In a directory, the next one is made, or it is there, or something else is. -/
theorem orThere_makeDirectory (hf : IsTree f)
    (hwalk : f.walk (f.start ⟨root, []⟩) parts = .ok e) (he : f.get? e = some .directory)
    (hpart : part ≠ []) (hname : nameable ⟨root, parts ++ [part]⟩ = .ok ()) :
    f.makeDirectory ⟨root, parts ++ [part]⟩ ≠ .error .notFound ∧
      Agrees (f.orThere ⟨root, parts ++ [part]⟩ (f.makeDirectory ⟨root, parts ++ [part]⟩))
        (f.makeAlong e [part]) := by
  have hon : f.walk (f.start ⟨root, []⟩) (parts ++ [part]) = f.walk e [part] :=
    walk_append_of_directory hwalk he [part]
  have hparent : f.locateParent ⟨root, parts ++ [part]⟩ = .ok e := by
    rw [locateParent_concat (nameable_of_concat hname), hwalk]
    simp only [bind, Except.bind, he]
  -- one that is refused counts as made if there is a directory
  have hthere {fault : OsFault} {e' : Location} (h : f.walk e [part] = .ok e')
      (hget : f.get? e' = some .directory) :
      f.orThere ⟨root, parts ++ [part]⟩ (.error fault) = (f, none) :=
    if_pos ((isDirectory_iff hname).2 ⟨e', hon.trans h, hget⟩)
  have hnone {fault : OsFault}
      (h : ∀ e', f.walk e [part] = .ok e' → f.get? e' ≠ some .directory) :
      f.orThere ⟨root, parts ++ [part]⟩ (.error fault) = (f, some fault) := by
    refine if_neg ?_
    rw [isDirectory_iff hname]
    rintro ⟨e', he', hget⟩
    exact h e' (hon.symm.trans he') hget
  -- up, or down to a name that is too long, to nothing, to a file or to a directory
  rcases f.way_cases e part with rfl | ⟨hup, hlong⟩ | ⟨hdown, hget⟩ | ⟨hdown, bytes, hget⟩ |
    ⟨hdown, hget⟩
  · have hmake : f.makeDirectory ⟨root, parts ++ [(".." : Text)]⟩ = .error .alreadyExists := by
      have hlocate : f.locate ⟨root, parts ++ [(".." : Text)]⟩ = .ok e.dropLast := by
        rw [locate, hname]
        exact hon.trans (walk_up f e [])
      rw [makeDirectory, hname, name_concat, if_pos (.inr rfl), hlocate]
      rfl
    rw [hmake, hthere (walk_up f e []) (hf.above _ _ he), makeAlong_up]
    exact ⟨by rintro ⟨⟩, rfl, rfl⟩
  · have hwalk' : f.walk e [part] = .error .nameTooLong := walk_of_tooLong hup hlong []
    have hblocked : ∀ e', f.walk e [part] = .ok e' → f.get? e' ≠ some .directory := by
      intro e' he'
      cases hwalk'.symm.trans he'
    rw [makeDirectory_in hname hparent hpart hup, if_pos hlong, hnone hblocked,
      makeAlong_of_tooLong hup hlong]
    exact ⟨by rintro ⟨⟩, rfl, rfl⟩
  · rw [makeDirectory_in hname hparent hpart hdown.1, hdown.2, hget,
      makeAlong_of_missing hdown hget]
    exact ⟨by rintro ⟨⟩, rfl, rfl⟩
  · have hfile : ∀ e', f.walk e [part] = .ok e' → f.get? e' ≠ some .directory := by
      intro e' he'
      cases (walk_of_file hdown hget).symm.trans he'
      rw [hget]
      rintro ⟨⟩
    rw [makeDirectory_in hname hparent hpart hdown.1, hdown.2, hget,
      makeAlong_of_file hdown hget]
    rw [if_neg Bool.false_ne_true, hnone hfile]
    exact ⟨by rintro ⟨⟩, rfl, rfl⟩
  · rw [makeDirectory_in hname hparent hpart hdown.1, hdown.2, hget,
      makeAlong_of_directory hdown hget]
    have hend : f.walk e [part] = .ok (e ++ [part]) := walk_of_directory hdown hget []
    rw [if_neg Bool.false_ne_true, hthere hend hget]
    exact ⟨by rintro ⟨⟩, rfl, rfl⟩

/-! ## All directories -/

theorem makeDirectoriesLoop_of_found {above : List Text}
    (h : f.makeDirectory ⟨root, above.reverse ++ [part]⟩ ≠ .error .notFound) :
    f.makeDirectoriesLoop root (part :: above) =
      f.orThere ⟨root, above.reverse ++ [part]⟩
        (f.makeDirectory ⟨root, above.reverse ++ [part]⟩) := by
  unfold makeDirectoriesLoop
  simp only [List.reverse_cons]

/-- The last directory is made after those that it is in, if these can be made. -/
theorem makeDirectoriesLoop_of_some {above : List Text}
    (h : f.makeDirectory ⟨root, above.reverse ++ [part]⟩ = .error .notFound)
    (habove : f.makeDirectoriesLoop root above = (k, some fault)) :
    f.makeDirectoriesLoop root (part :: above) = (k, some fault) := by
  cases above with
  | nil => cases habove
  | cons next above =>
    rw [← List.reverse_cons] at h
    unfold makeDirectoriesLoop
    simp only [h, habove]

theorem makeDirectoriesLoop_of_none {above : List Text} (hsome : above ≠ [])
    (h : f.makeDirectory ⟨root, above.reverse ++ [part]⟩ = .error .notFound)
    (habove : f.makeDirectoriesLoop root above = (k, none)) :
    f.makeDirectoriesLoop root (part :: above) =
      k.orThere ⟨root, above.reverse ++ [part]⟩
        (k.makeDirectory ⟨root, above.reverse ++ [part]⟩) := by
  cases above with
  | nil => exact absurd rfl hsome
  | cons next above =>
    rw [← List.reverse_cons] at h ⊢
    unfold makeDirectoriesLoop
    simp only [h, habove]

/-- The last step agrees if all those before it do. -/
theorem makeDirectoriesLoop_agrees_last (hf : IsTree f) {above : List Text} (hsome : above ≠ [])
    (h : f.makeDirectory ⟨root, above.reverse ++ [part]⟩ = .error .notFound)
    (habove : Agrees (f.makeDirectoriesLoop root above)
      (f.makeAlong (f.start ⟨root, []⟩) above.reverse))
    (hpart : part ≠ []) (hname : nameable ⟨root, above.reverse ++ [part]⟩ = .ok ()) :
    Agrees (f.makeDirectoriesLoop root (part :: above))
      (f.makeAlong (f.start ⟨root, []⟩) (above.reverse ++ [part])) := by
  have hstart := hf.start ⟨root, []⟩
  have htree := isTree_makeAlong hf hstart above.reverse
  have hadds := addsDirectories_makeAlong f (f.start ⟨root, []⟩) above.reverse
  rw [makeAlong_append]
  rcases hloop : f.makeDirectoriesLoop root above with ⟨k, fault?⟩
  rcases hend : f.makeAlong (f.start ⟨root, []⟩) above.reverse with ⟨k', e?⟩
  rw [hloop, hend] at habove
  rw [hend] at htree hadds
  obtain ⟨hk, hagree⟩ := habove
  simp only at hk hagree
  subst hk
  -- both ways have left the same tree above, and have come to an end or not alike
  cases fault? with
  | some fault =>
    rw [makeDirectoriesLoop_of_some h hloop]
    cases e? with
    | none => exact ⟨rfl, rfl⟩
    | some e => cases hagree
  | none =>
    rw [makeDirectoriesLoop_of_none hsome h hloop]
    cases e? with
    | none => cases hagree
    | some e =>
      obtain ⟨hwalk, he⟩ := makeAlong_eq_some hf hstart hend
      have hsame : k.start ⟨root, []⟩ = f.start ⟨root, []⟩ := by
        rw [start, start, hadds.home]
      rw [← hsame] at hwalk
      exact (orThere_makeDirectory htree hwalk he hpart hname).2

/-- Making a directory and all that it is in is the walk that makes what is missing. -/
theorem makeDirectoriesLoop_agrees (hf : IsTree f) {reversed : List Text}
    (hparts : ([] : Text) ∉ reversed) (hname : nameable ⟨root, reversed.reverse⟩ = .ok ()) :
    Agrees (f.makeDirectoriesLoop root reversed)
      (f.makeAlong (f.start ⟨root, []⟩) reversed.reverse) := by
  induction reversed with
  | nil => exact ⟨rfl, rfl⟩
  | cons part above ih =>
    rw [List.reverse_cons] at hname ⊢
    obtain ⟨hpart, habove⟩ : part ≠ [] ∧ ([] : Text) ∉ above := by
      rw [List.mem_cons, not_or] at hparts
      exact ⟨fun h => hparts.1 h.symm, hparts.2⟩
    have hstart := hf.start ⟨root, []⟩
    cases hwalk : f.walk (f.start ⟨root, []⟩) above.reverse with
    | ok e =>
      obtain ⟨n, hn⟩ := exists_get?_of_walk hf hstart hwalk
      cases n with
      | directory =>
        -- nothing is missing above
        obtain ⟨hfound, hagrees⟩ := orThere_makeDirectory hf hwalk hn hpart hname
        rw [makeDirectoriesLoop_of_found hfound, makeAlong_append, makeAlong_of_walk hwalk hn]
        exact hagrees
      | file bytes =>
        obtain ⟨hmake, hnone⟩ := makeDirectory_of_file hf hwalk hn hname
        rw [makeDirectoriesLoop_of_found (by rw [hmake]; rintro ⟨⟩), makeAlong_append,
          makeAlong_of_walk_file hf hstart hwalk hn, hmake, orThere, hnone]
        exact ⟨rfl, rfl⟩
    | error fault =>
      have hmake := makeDirectory_of_error hwalk hname
      by_cases hfault : fault = .notFound
      · subst hfault
        have hsome : above ≠ [] := by
          rintro rfl
          cases hwalk
        have hagrees := ih habove (nameable_of_concat hname)
        exact makeDirectoriesLoop_agrees_last hf hsome hmake hagrees hpart hname
      · have hnone := isDirectory_of_error hwalk hname
        have hfound : f.makeDirectory ⟨root, above.reverse ++ [part]⟩ ≠ .error .notFound := by
          rw [hmake]
          exact fun h => hfault (Except.error.inj h)
        rw [makeDirectoriesLoop_of_found hfound, makeAlong_append,
          makeAlong_of_blocked hwalk hfault, hmake, orThere, hnone]
        exact ⟨rfl, rfl⟩

section Path

variable {p : Path} {above : Location}

theorem makeDirectories_agrees (hf : IsTree f) (hparts : ([] : Text) ∉ p.parts)
    (hname : nameable p = .ok ()) :
    Agrees (f.makeDirectories p) (f.makeAlong (f.start p) p.parts) := by
  have hreversed : ([] : Text) ∉ p.parts.reverse := fun h => hparts (List.mem_reverse.1 h)
  have hloop : Agrees (f.makeDirectoriesLoop p.root p.parts.reverse)
      (f.makeAlong (f.start ⟨p.root, []⟩) p.parts.reverse.reverse) :=
    makeDirectoriesLoop_agrees hf hreversed (by rw [List.reverse_reverse]; exact hname)
  rw [List.reverse_reverse] at hloop
  exact hloop

/-- Nothing is made along a path that cannot be asked about, unless there is nothing to make. -/
theorem makeDirectories_of_unnameable (hname : nameable p = .error fault) :
    f.makeDirectories p = (f, none) ∧ p.parts = [] ∨ f.makeDirectories p = (f, some fault) := by
  obtain ⟨root, parts⟩ := p
  rcases List.eq_nil_or_concat parts with rfl | ⟨above, part, rfl⟩
  · exact .inl ⟨rfl, rfl⟩
  · right
    rw [List.concat_eq_append] at hname ⊢
    have hfault : fault ≠ .notFound := by
      rintro rfl
      rw [nameable] at hname
      split_ifs at hname
      · cases hname
      · cases hname
    have hmake : f.makeDirectory ⟨root, above ++ [part]⟩ = .error fault := by
      rw [makeDirectory, hname]
      rfl
    have hnone : f.isDirectory ⟨root, above ++ [part]⟩ = false := by
      rw [isDirectory, node, locate, hname]
      rfl
    have hreverse : (above ++ [part]).reverse = part :: above.reverse := by simp
    have hfound : f.makeDirectory ⟨root, above.reverse.reverse ++ [part]⟩ ≠ .error .notFound := by
      rw [List.reverse_reverse, hmake]
      exact fun h => hfault (Except.error.inj h)
    rw [makeDirectories, hreverse, makeDirectoriesLoop_of_found hfound, List.reverse_reverse, hmake,
      orThere, hnone]
    rfl

/-- Directories that have been made are there, up to where the names lead. -/
theorem makeDirectories_eq_none (hf : IsTree f) (hparts : ([] : Text) ∉ p.parts)
    (h : f.makeDirectories p = (g, none)) :
    IsTree g ∧ g.walk (f.start p) p.parts = .ok (follow (f.start p) p.parts) ∧
      g.get? (follow (f.start p) p.parts) = some .directory := by
  cases hname : nameable p with
  | error fault =>
    rcases makeDirectories_of_unnameable (f := f) hname with ⟨hnone, hempty⟩ | hsome
    · cases h.symm.trans hnone
      rw [hempty]
      exact ⟨hf, rfl, hf.start p⟩
    · cases h.symm.trans hsome
  | ok u =>
    obtain ⟨htree, hsome⟩ := makeDirectories_agrees hf hparts hname
    have hisTree := isTree_makeAlong hf (hf.start p) p.parts
    rw [h] at htree hsome
    rcases hend : f.makeAlong (f.start p) p.parts with ⟨g', _ | e⟩
    · rw [hend] at hsome
      cases hsome
    · rw [hend] at htree hisTree
      cases htree
      obtain ⟨hwalk, he⟩ := makeAlong_eq_some hf (hf.start p) hend
      cases eq_follow_of_walk hwalk
      exact ⟨hisTree, hwalk, he⟩

theorem isTree_makeDirectories (hf : IsTree f) (hparts : ([] : Text) ∉ p.parts) :
    IsTree (f.makeDirectories p).1 := by
  cases hname : nameable p with
  | error fault =>
    rcases makeDirectories_of_unnameable (f := f) hname with ⟨hnone, -⟩ | hsome
    · rw [hnone]
      exact hf
    · rw [hsome]
      exact hf
  | ok u =>
    rw [(makeDirectories_agrees hf hparts hname).1]
    exact isTree_makeAlong hf (hf.start p) p.parts

/-- Directories that are there already change nothing about whether others can be made. -/
theorem makeDirectories_mono (hf : IsTree f) (hg : IsTree g) (h : AddsDirectories f g)
    (hparts : ([] : Text) ∉ p.parts) :
    (g.makeDirectories p).2.isNone = (f.makeDirectories p).2.isNone ∧
      NoFurther f g (f.makeDirectories p).1 (g.makeDirectories p).1 := by
  cases hname : nameable p with
  | error fault =>
    rcases makeDirectories_of_unnameable (f := f) hname with ⟨hfnone, hempty⟩ | hfsome
    · have hgnone : g.makeDirectories p = (g, none) := by rw [makeDirectories, hempty]; rfl
      rw [hfnone, hgnone]
      exact ⟨rfl, h, fun _ hx => hx⟩
    · rcases makeDirectories_of_unnameable (f := g) hname with ⟨hgnone, hempty⟩ | hgsome
      · rw [makeDirectories, hempty] at hfsome
        cases hfsome
      · rw [hfsome, hgsome]
        exact ⟨rfl, h, fun _ hx => hx⟩
  | ok u =>
    obtain ⟨hftree, hfsome⟩ := makeDirectories_agrees hf hparts hname
    obtain ⟨hgtree, hgsome⟩ := makeDirectories_agrees hg hparts hname
    have hstart : g.start p = f.start p := by rw [start, start, h.home]
    obtain ⟨hend, hfurther⟩ := makeAlong_mono h (f.start p) p.parts
    rw [hstart] at hgtree hgsome
    rw [hfsome, hgsome, hftree, hgtree, hend]
    exact ⟨rfl, hfurther⟩

/-! ## Putting a file at a path -/

/-- A file can be put at the path, as far as its names go. -/
def Fits (f : Files) (p : Path) : Prop :=
  nameable p.parent = .ok () ∧ p.name.contains '\x00' = false ∧
    ¬ nameLimit < (Text.Utf8.encode p.name).length + temporaryRoom ∧ f.leavesNoRoom p = false ∧
    p.name ≠ [] ∧ p.name ≠ ".."

theorem fits_congr (h : g.home = f.home) : g.Fits p ↔ f.Fits p := by
  have hroom : g.leavesNoRoom p = f.leavesNoRoom p := by
    rw [leavesNoRoom, leavesNoRoom, absolute, absolute, start, start, h]
  rw [Fits, Fits, hroom]

/-- In a directory that is there, a file is put at a path that fits, unless a directory stands
    there. -/
theorem replace_cases (hwalk : f.walk (f.start p) p.parent.parts = .ok above)
    (habove : f.get? above = some .directory) (bytes : List UInt8) :
    (f.Fits p ∧ f.get? (above ++ [p.name]) ≠ some .directory ∧
      f.replace p bytes = .ok (f.put (above ++ [p.name]) (.file bytes))) ∨
    (¬ (f.Fits p ∧ f.get? (above ++ [p.name]) ≠ some .directory) ∧
      ∃ fault, f.replace p bytes = .error fault) := by
  rw [replace, locateParent, locate]
  cases hname : nameable p.parent with
  | error fault =>
    refine .inr ⟨fun h => ?_, fault, rfl⟩
    cases h.1.1.symm.trans hname
  | ok u =>
    have hstart : f.start p.parent = f.start p := rfl
    simp only [bind, Except.bind, hstart, hwalk, habove]
    -- each check of the replacement is a part of what fits
    split_ifs with hnul hlong hroom hlast
    · refine .inr ⟨fun h => ?_, _, rfl⟩
      rw [h.1.2.1] at hnul
      cases hnul
    · exact .inr ⟨fun h => h.1.2.2.1 hlong, _, rfl⟩
    · refine .inr ⟨fun h => ?_, _, rfl⟩
      rw [h.1.2.2.2.1] at hroom
      cases hroom
    · exact .inr ⟨fun h => hlast.elim h.1.2.2.2.2.1 h.1.2.2.2.2.2, _, rfl⟩
    · obtain ⟨hsome, hup⟩ := not_or.1 hlast
      have hfits : f.Fits p := ⟨hname, Bool.eq_false_iff.2 hnul, hlong,
        Bool.eq_false_iff.2 hroom, hsome, hup⟩
      rcases hget : f.get? (above ++ [p.name]) with _ | old | _
      · exact .inl ⟨hfits, by rintro ⟨⟩, rfl⟩
      · exact .inl ⟨hfits, by rintro ⟨⟩, rfl⟩
      · exact .inr ⟨fun h => h.2 rfl, _, rfl⟩

end Path

/-! ## Names that cannot be -/

/-- There is a NUL in the path. -/
def HasNul (p : Path) : Prop := p.parts.any (·.contains '\x00') = true

section Nul

variable {p : Path}

theorem bind_ne_unnameable {α β : Type} {x : Except OsFault α} {next : α → Except OsFault β}
    (hx : x ≠ .error .unnameable) (hnext : ∀ a, next a ≠ .error .unnameable) :
    x >>= next ≠ .error .unnameable := by
  cases x with
  | error fault =>
    intro h
    cases h
    exact hx rfl
  | ok a => exact hnext a

theorem nameable_ne_unnameable (hp : ¬ HasNul p) : nameable p ≠ .error .unnameable := by
  have hnul : ¬ p.parts.any (·.contains '\x00') = true := hp
  rw [nameable, if_neg hnul]
  split_ifs <;> rintro ⟨⟩

theorem walk_ne_unnameable (f : Files) (here : Location) (parts : List Text) :
    f.walk here parts ≠ .error .unnameable := by
  induction parts generalizing here with
  | nil => exact nofun
  | cons part parts ih =>
    rcases f.way_cases here part with rfl | ⟨hup, hlong⟩ | ⟨hdown, hget⟩ | ⟨hdown, bytes, hget⟩ |
      ⟨hdown, hget⟩
    · rw [walk_up]
      exact ih _
    · rw [walk_of_tooLong hup hlong]
      exact nofun
    · rw [walk_of_missing hdown hget]
      exact nofun
    · rcases walk_at_file hdown hget parts with ⟨-, hat⟩ | hat
      · rw [hat]
        exact nofun
      · rw [hat]
        exact nofun
    · rw [walk_of_directory hdown hget]
      exact ih _

theorem locate_ne_unnameable (hp : ¬ HasNul p) : f.locate p ≠ .error .unnameable :=
  bind_ne_unnameable (nameable_ne_unnameable hp) fun _ => walk_ne_unnameable f _ _

theorem not_hasNul_parent (hp : ¬ HasNul p) : ¬ HasNul p.parent := by
  intro h
  obtain ⟨part, hpart, hnul⟩ := List.any_eq_true.1 h
  exact hp (List.any_eq_true.2 ⟨part, (List.dropLast_sublist _).subset hpart, hnul⟩)

theorem locateParent_ne_unnameable (hp : ¬ HasNul p) :
    f.locateParent p ≠ .error .unnameable := by
  refine bind_ne_unnameable (locate_ne_unnameable (not_hasNul_parent hp)) fun at_ => ?_
  split <;> exact nofun

theorem makeDirectory_ne_unnameable (hp : ¬ HasNul p) :
    f.makeDirectory p ≠ .error .unnameable := by
  refine bind_ne_unnameable (nameable_ne_unnameable hp) fun _ => ?_
  split
  · exact bind_ne_unnameable (locate_ne_unnameable hp) fun _ => nofun
  · refine bind_ne_unnameable (locateParent_ne_unnameable hp) fun above => ?_
    split_ifs
    · exact nofun
    · split <;> exact nofun

theorem orThere_ne_unnameable {r : Except OsFault Files} (hr : r ≠ .error .unnameable) :
    (f.orThere p r).2 ≠ some .unnameable := by
  cases r with
  | ok g => exact nofun
  | error fault =>
    rw [orThere]
    split_ifs
    · exact nofun
    · intro h
      exact hr (congrArg Except.error (Option.some.inj h))

theorem makeDirectoriesLoop_ne_unnameable (f : Files) {reversed : List Text}
    (hreversed : ¬ HasNul ⟨root, reversed.reverse⟩) :
    (f.makeDirectoriesLoop root reversed).2 ≠ some .unnameable := by
  induction reversed with
  | nil => rintro ⟨⟩
  | cons part above ih =>
    rw [List.reverse_cons] at hreversed
    have habove : ¬ HasNul ⟨root, above.reverse⟩ := by
      intro h
      refine hreversed ?_
      rw [HasNul, List.any_append, Bool.or_eq_true]
      exact .inl h
    have hmake (k : Files) : k.makeDirectory ⟨root, above.reverse ++ [part]⟩ ≠
        .error .unnameable := makeDirectory_ne_unnameable hreversed
    by_cases hmissing : f.makeDirectory ⟨root, above.reverse ++ [part]⟩ = .error .notFound
    · -- the directories above come first
      have hbefore := ih habove
      rcases hloop : f.makeDirectoriesLoop root above with ⟨k, _ | fault⟩
      · by_cases hsome : above = []
        · subst hsome
          unfold makeDirectoriesLoop
          rw [List.reverse_nil] at hmissing
          simp only [List.reverse_cons, List.reverse_nil, hmissing]
          rintro ⟨⟩
        · rw [makeDirectoriesLoop_of_none hsome hmissing hloop]
          exact orThere_ne_unnameable (hmake k)
      · rw [makeDirectoriesLoop_of_some hmissing hloop]
        rw [hloop] at hbefore
        exact hbefore
    · rw [makeDirectoriesLoop_of_found hmissing]
      exact orThere_ne_unnameable (hmake f)

theorem makeDirectories_ne_unnameable (f : Files) (hp : ¬ HasNul p) :
    (f.makeDirectories p).2 ≠ some .unnameable := by
  refine makeDirectoriesLoop_ne_unnameable f ?_
  rw [List.reverse_reverse]
  exact hp

theorem not_contains_name (hp : ¬ HasNul p) : p.name.contains '\x00' = false := by
  rw [← Bool.not_eq_true]
  intro hnul
  rcases List.eq_nil_or_concat p.parts with hparts | ⟨above, part, hparts⟩
  · rw [Path.name, hparts] at hnul
    cases hnul
  · rw [Path.name, hparts, List.concat_eq_append, List.getLastD_concat] at hnul
    refine hp ?_
    rw [HasNul, hparts, List.concat_eq_append, List.any_append, Bool.or_eq_true]
    exact .inr (by simpa using hnul)

theorem replace_ne_unnameable (hp : ¬ HasNul p) (bytes : List UInt8) :
    f.replace p bytes ≠ .error .unnameable := by
  refine bind_ne_unnameable (locateParent_ne_unnameable hp) fun above => ?_
  rw [not_contains_name hp, if_neg Bool.false_ne_true]
  split_ifs
  · exact nofun
  · exact nofun
  · exact nofun
  · split <;> exact nofun

end Nul

end Tracewright.Files
