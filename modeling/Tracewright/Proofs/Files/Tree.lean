/-
  Tracewright.Proofs.Files.Tree

  What changes of files leave alone.

    * `SameBut`            — two trees are the same but for the bytes of a file.
    * `SameBut.node_eq`    — looking something up in them comes to the same,
                             unless it comes to that file.
    * `Adds`               — a tree has bytes at the end of a file.
    * `AddsDirectories`    — a tree has directories that another one has not.
    * `addsDirectories_makeDirectories`
                           — making directories does nothing else.
    * `replace_eq_ok`      — a file that has been put somewhere is found there.
-/
import Mathlib.Tactic.SplitIfs
import Tracewright.Files.Tree

namespace Tracewright

def Node.isDirectory : Node → Bool
  | .directory => true
  | .file _ => false

namespace Files

variable {f g k : Files} {x at_ : Location} {n : Node} {p : Path}

/-- Steps that succeed one after the other have all succeeded. -/
theorem bind_eq_ok {α β : Type} {x : Except OsFault α} {step : α → Except OsFault β} {b : β}
    (h : x >>= step = .ok b) : ∃ a, x = .ok a ∧ step a = .ok b := by
  cases x with
  | error fault => cases h
  | ok a => exact ⟨a, rfl, h⟩

/-! ## Putting -/

theorem lookup_filter_of_ne {l : List (Location × Node)} (h : x ≠ at_) :
    (l.filter fun e => e.1 != at_).lookup x = l.lookup x := by
  induction l with
  | nil => rfl
  | cons e l ih =>
    by_cases he : e.1 = at_
    · -- what is dropped stands elsewhere
      have hne : (x == e.1) = false := by
        rw [beq_eq_false_iff_ne, he]
        exact h
      rw [List.filter_cons_of_neg (by simp [he]), List.lookup_cons, hne, ih]
    · rw [List.filter_cons_of_pos (by simp [he]), List.lookup_cons, List.lookup_cons, ih]

theorem get?_put_self (h : at_ ≠ []) : (f.put at_ n).get? at_ = some n := by
  rw [get?, if_neg h, put, List.lookup_cons_self]

theorem get?_put_of_ne (h : x ≠ at_) : (f.put at_ n).get? x = f.get? x := by
  have hne : (x == at_) = false := beq_eq_false_iff_ne.2 h
  rw [get?, get?, put, List.lookup_cons, hne, lookup_filter_of_ne h]

theorem get?_nil : f.get? [] = some .directory := by
  rw [get?, if_pos rfl]

/-- What can be read is there. -/
theorem probe_of_read {bytes : List UInt8} (h : f.read p = .ok bytes) :
    ∃ n, f.probe p = .ok (some n) := by
  obtain ⟨n, hnode, -⟩ := bind_eq_ok h
  exact ⟨n, by rw [probe, hnode]⟩

/-! ## The same but for one file -/

/-- Two trees are the same but for the bytes of a file, if there is one. -/
structure SameBut (at? : Option Location) (f g : Files) : Prop where
  home : g.home = f.home
  kind : ∀ x, (g.get? x).map Node.isDirectory = (f.get? x).map Node.isDirectory
  get? : ∀ x, at? ≠ some x → g.get? x = f.get? x

/-- A path does not lead to a file, if there is one. -/
def Avoids (f : Files) (at? : Option Location) (p : Path) : Prop :=
  ∀ x, at? = some x → f.locate p ≠ .ok x

namespace SameBut

variable {at? : Option Location}

theorem refl (at? : Option Location) (f : Files) : SameBut at? f f :=
  ⟨rfl, fun _ => rfl, fun _ _ => rfl⟩

theorem trans (h : SameBut at? f g) (h' : SameBut at? g k) : SameBut at? f k where
  home := h'.home.trans h.home
  kind x := (h'.kind x).trans (h.kind x)
  get? x hx := (h'.get? x hx).trans (h.get? x hx)

/-- Where the one tree has a directory, a file or nothing, so has the other one. -/
theorem get?_cases (h : SameBut at? f g) (x : Location) :
    (g.get? x = none ∧ f.get? x = none) ∨
    (g.get? x = some .directory ∧ f.get? x = some .directory) ∨
    ∃ new old, g.get? x = some (.file new) ∧ f.get? x = some (.file old) := by
  have hkind := h.kind x
  rcases hg : g.get? x with _ | new | _ <;> rcases hf : f.get? x with _ | old | _ <;>
    simp_all [Node.isDirectory]

/-- A walk asks only which directories and files there are. -/
theorem walk_eq (h : SameBut at? f g) (here : Location) (parts : List Text) :
    g.walk here parts = f.walk here parts := by
  induction parts generalizing here with
  | nil => rfl
  | cons part parts ih =>
    rw [walk, walk]
    by_cases hup : part = ".."
    · rw [if_pos hup, if_pos hup]
      exact ih _
    by_cases hlong : isTooLong part = true
    · rw [if_neg hup, if_neg hup, if_pos hlong, if_pos hlong]
    rw [if_neg hup, if_neg hup, if_neg hlong, if_neg hlong]
    rcases h.get?_cases (here ++ [part]) with ⟨hg, hf⟩ | ⟨hg, hf⟩ | ⟨new, old, hg, hf⟩
    · rw [hg, hf]
    · rw [hg, hf]
      exact ih _
    · rw [hg, hf]

theorem locate_eq (h : SameBut at? f g) (p : Path) : g.locate p = f.locate p := by
  have hstart : g.start p = f.start p := by rw [start, start, h.home]
  rw [locate, locate, hstart, h.walk_eq]

/-- What a path leads to is the same, unless it is that file. -/
theorem node_eq (h : SameBut at? f g) (hp : f.Avoids at? p) : g.node p = f.node p := by
  rw [node, node, h.locate_eq]
  cases hlocate : f.locate p with
  | error fault => rfl
  | ok x =>
    have hx : at? ≠ some x := fun hat => hp x hat hlocate
    simp only [bind, Except.bind, h.get? x hx]

theorem read_eq (h : SameBut at? f g) (hp : f.Avoids at? p) : g.read p = f.read p := by
  rw [read, read, h.node_eq hp]

theorem probe_eq (h : SameBut at? f g) (hp : f.Avoids at? p) : g.probe p = f.probe p := by
  rw [probe, probe, h.node_eq hp]

end SameBut

/-- Adding to a file changes nothing but its bytes. -/
theorem sameBut_append (f : Files) (at_ : Location) (bytes : List UInt8) :
    SameBut (some at_) f (f.append at_ bytes) := by
  rw [append]
  split
  case h_1 old hold =>
    have hne : at_ ≠ [] := by
      rintro rfl
      rw [get?_nil] at hold
      cases hold
    refine ⟨rfl, fun x => ?_, fun x hx => ?_⟩
    · by_cases hat : x = at_
      · rw [hat, get?_put_self hne, hold]
        rfl
      · rw [get?_put_of_ne hat]
    · exact get?_put_of_ne fun hat => hx (congrArg some hat.symm)
  case h_2 => exact .refl _ f

/-! ## Adding to a file -/

/-- The second tree has bytes at the end of a file, and is otherwise the same. -/
structure Adds (at_ : Location) (bytes : List UInt8) (f g : Files) : Prop where
  home : g.home = f.home
  file : ∀ old, f.get? at_ = some (.file old) → g.get? at_ = some (.file (old ++ bytes))
  others : ∀ x, x ≠ at_ → g.get? x = f.get? x

namespace Adds

variable {bytes more : List UInt8}

theorem refl (at_ : Location) (f : Files) : Adds at_ [] f f :=
  ⟨rfl, fun old hold => by rw [List.append_nil, hold], fun _ _ => rfl⟩

theorem trans (h : Adds at_ bytes f g) (h' : Adds at_ more g k) : Adds at_ (bytes ++ more) f k where
  home := h'.home.trans h.home
  file old hold := by
    rw [← List.append_assoc]
    exact h'.file _ (h.file old hold)
  others x hx := (h'.others x hx).trans (h.others x hx)

end Adds

/-- A file that has been opened was there, or has been made where there was nothing; nothing else
    has changed. -/
theorem openEnd_cases (h : f.openEnd p = .ok (at_, g)) :
    ∃ bytes, g.get? at_ = some (.file bytes) ∧
      (f.get? at_ = some (.file bytes) ∨ (f.get? at_ = none ∧ bytes = [])) ∧
      g.home = f.home ∧ ∀ x, x ≠ at_ → g.get? x = f.get? x := by
  obtain ⟨-, -, h⟩ := bind_eq_ok h
  by_cases hname : p.name = []
  · rw [if_pos hname] at h
    cases h
  rw [if_neg hname] at h
  obtain ⟨above, -, h⟩ := bind_eq_ok h
  by_cases hlong : isTooLong p.name = true
  · rw [if_pos hlong] at h
    cases h
  rw [if_neg hlong] at h
  have hne : above ++ [p.name] ≠ [] := List.append_ne_nil_of_right_ne_nil _ (List.cons_ne_nil _ _)
  -- a new file is empty, and one that is there is left as it is
  cases hget : f.get? (above ++ [p.name]) with
  | none =>
    simp only [hget] at h
    cases h
    exact ⟨[], get?_put_self hne, .inr ⟨hget, rfl⟩, rfl, fun x hx => get?_put_of_ne hx⟩
  | some n =>
    simp only [hget] at h
    cases n with
    | directory => cases h
    | file bytes =>
      cases h
      exact ⟨bytes, hget, .inl hget, rfl, fun _ _ => rfl⟩

/-- A file that has been opened is there, and nothing else has changed. -/
theorem openEnd_eq_ok (h : f.openEnd p = .ok (at_, g)) :
    g.home = f.home ∧ (∃ bytes, g.get? at_ = some (.file bytes)) ∧
      ∀ x, x ≠ at_ → g.get? x = f.get? x := by
  obtain ⟨bytes, hfile, -, hhome, hothers⟩ := openEnd_cases h
  exact ⟨hhome, ⟨bytes, hfile⟩, hothers⟩

/-! ## Making directories -/

/-- What stands at a location has been left alone, or a directory has been made where there was
    nothing. -/
def Untouched (f g : Files) (x : Location) : Prop :=
  g.get? x = f.get? x ∨ (f.get? x = none ∧ g.get? x = some .directory)

theorem Untouched.trans (h : Untouched f g x) (h' : Untouched g k x) : Untouched f k x := by
  rcases h' with hsame | ⟨hnone, hnew⟩
  · rw [Untouched, hsame]
    exact h
  · rcases h with hsame | ⟨-, hdirectory⟩
    · exact .inr ⟨hsame ▸ hnone, hnew⟩
    · rw [hdirectory] at hnone
      cases hnone

/-- The second tree has directories that the first one has not, and nothing else. -/
structure AddsDirectories (f g : Files) : Prop where
  home : g.home = f.home
  untouched : ∀ x, Untouched f g x

namespace AddsDirectories

theorem refl (f : Files) : AddsDirectories f f := ⟨rfl, fun _ => .inl rfl⟩

theorem trans (h : AddsDirectories f g) (h' : AddsDirectories g k) : AddsDirectories f k :=
  ⟨h'.home.trans h.home, fun x => (h.untouched x).trans (h'.untouched x)⟩

end AddsDirectories

theorem addsDirectories_makeDirectory (h : f.makeDirectory p = .ok g) : AddsDirectories f g := by
  rw [makeDirectory] at h
  obtain ⟨-, -, h⟩ := bind_eq_ok h
  by_cases hname : p.name = [] ∨ p.name = ".."
  · rw [if_pos hname] at h
    obtain ⟨-, -, h⟩ := bind_eq_ok h
    cases h
  rw [if_neg hname] at h
  obtain ⟨above, -, h⟩ := bind_eq_ok h
  by_cases hlong : isTooLong p.name = true
  · rw [if_pos hlong] at h
    cases h
  rw [if_neg hlong] at h
  cases hget : f.get? (above ++ [p.name]) with
  | some n => rw [hget] at h; cases h
  | none =>
    rw [hget] at h
    cases h
    refine ⟨rfl, fun x => ?_⟩
    by_cases hx : x = above ++ [p.name]
    · subst hx
      exact .inr ⟨hget, get?_put_self (List.append_ne_nil_of_right_ne_nil _ (List.cons_ne_nil _ _))⟩
    · exact .inl (get?_put_of_ne hx)

theorem addsDirectories_orThere {r : Except OsFault Files}
    (h : ∀ g, r = .ok g → AddsDirectories k g) (h' : AddsDirectories k f) :
    AddsDirectories k (f.orThere p r).1 := by
  cases r with
  | ok g => exact h g rfl
  | error fault =>
    show AddsDirectories k (if f.isDirectory p then (f, none) else (f, some fault)).1
    split_ifs
    · exact h'
    · exact h'

theorem addsDirectories_makeDirectoriesLoop (f : Files) (root : Text) (parts : List Text) :
    AddsDirectories f (f.makeDirectoriesLoop root parts).1 := by
  induction parts with
  | nil => exact .refl f
  | cons part above ih =>
    have hhere : ∀ g, f.makeDirectory ⟨root, (part :: above).reverse⟩ = .ok g →
        AddsDirectories f g := fun _ => addsDirectories_makeDirectory
    unfold makeDirectoriesLoop
    simp only
    cases hmake : f.makeDirectory ⟨root, (part :: above).reverse⟩ with
    | ok g => exact hhere g hmake
    | error fault =>
      cases fault with
      | notFound =>
        -- the directory is made after those it is in; what they are leaves room for nothing else
        cases above with
        | nil => exact .refl f
        | cons name rest =>
          simp only
          cases hloop : f.makeDirectoriesLoop root (name :: rest) with
          | mk g fault? =>
            rw [hloop] at ih
            cases fault? with
            | some fault => exact ih
            | none =>
              exact addsDirectories_orThere
                (fun g' hg' => ih.trans (addsDirectories_makeDirectory hg')) ih
      | _ => exact addsDirectories_orThere (fun _ h => by cases h) (.refl f)

/-- Making directories does nothing else, also where it fails. -/
theorem addsDirectories_makeDirectories (f : Files) (p : Path) :
    AddsDirectories f (f.makeDirectories p).1 :=
  addsDirectories_makeDirectoriesLoop f p.root p.parts.reverse

/-! ## Putting a file in its place -/

/-- The parts of a path with a last one. -/
theorem parts_eq (h : p.name ≠ []) : p.parts = p.parent.parts ++ [p.name] := by
  have hne : p.parts ≠ [] := by
    intro hempty
    rw [Path.name, hempty] at h
    exact h rfl
  have hname : p.name = p.parts.getLast hne := by
    rw [Path.name, List.getLastD_eq_getLast?, List.getLast?_eq_some_getLast hne, Option.getD_some]
  rw [hname]
  exact (List.dropLast_concat_getLast hne).symm

/-- A walk into a directory goes on to a file that has been put into it. -/
theorem walk_put_append {here above : Location} {parts : List Text} {name : Text}
    {bytes : List UInt8} (hwalk : f.walk here parts = .ok above)
    (habove : f.get? above = some .directory) (hup : name ≠ "..") (hlong : isTooLong name = false)
    (hfree : f.get? (above ++ [name]) ≠ some .directory) :
    (f.put (above ++ [name]) (.file bytes)).walk here (parts ++ [name]) =
      .ok (above ++ [name]) := by
  have hne : above ++ [name] ≠ [] := List.append_ne_nil_of_right_ne_nil _ (List.cons_ne_nil _ _)
  induction parts generalizing here with
  | nil =>
    rw [walk] at hwalk
    cases hwalk
    rw [List.nil_append, walk, if_neg hup, hlong, get?_put_self hne]
    rfl
  | cons part parts ih =>
    rw [walk] at hwalk
    rw [List.cons_append, walk]
    by_cases hpart : part = ".."
    · rw [if_pos hpart] at hwalk ⊢
      exact ih hwalk
    by_cases htoo : isTooLong part = true
    · rw [if_neg hpart, if_pos htoo] at hwalk
      cases hwalk
    rw [if_neg hpart, if_neg htoo] at hwalk ⊢
    cases hget : f.get? (here ++ [part]) with
    | none => rw [hget] at hwalk; cases hwalk
    | some n =>
      cases n with
      | directory =>
        -- the way leads through directories, and the file is put where there is none
        have hother : here ++ [part] ≠ above ++ [name] := fun heq => hfree (heq ▸ hget)
        rw [hget] at hwalk
        rw [get?_put_of_ne hother, hget]
        exact ih hwalk
      | file old =>
        rw [hget] at hwalk
        simp only at hwalk
        split_ifs at hwalk
        cases hwalk
        rw [hget] at habove
        cases habove

theorem nameable_eq_ok (h : nameable p = .ok ()) : p.parts.any (·.contains '\x00') = false := by
  rw [nameable] at h
  by_cases hnul : p.parts.any (·.contains '\x00') = true
  · rw [if_pos hnul] at h
    cases h
  · exact Bool.eq_false_iff.2 hnul

/-- A file that has been put in its place is found there, and nothing else has changed. -/
theorem replace_eq_ok {bytes : List UInt8} (h : f.replace p bytes = .ok g) :
    ∃ x, g.locate p = .ok x ∧ g.get? x = some (.file bytes) ∧ g.home = f.home ∧
      ∀ other, other ≠ x → g.get? other = f.get? other := by
  rw [replace] at h
  obtain ⟨above, habove, h⟩ := bind_eq_ok h
  split_ifs at h with hnul hroom hpath hname
  have hgood : p.name ≠ [] ∧ p.name ≠ ".." := not_or.1 hname
  -- the directory that the file is put into
  rw [locateParent] at habove
  obtain ⟨at_, hlocate, hdirectory⟩ := bind_eq_ok habove
  have hdirectory : f.get? above = some .directory ∧ at_ = above := by
    cases hget : f.get? at_ with
    | none => rw [hget] at hdirectory; cases hdirectory
    | some n =>
      rw [hget] at hdirectory
      cases n with
      | file _ => cases hdirectory
      | directory => cases hdirectory; exact ⟨hget, rfl⟩
  obtain ⟨hdirectory, rfl⟩ := hdirectory
  rw [locate] at hlocate
  obtain ⟨⟨⟩, hparent, hwalk⟩ := bind_eq_ok hlocate
  have hfree : f.get? (at_ ++ [p.name]) ≠ some .directory := by
    intro hget
    rw [hget] at h
    cases h
  have hg : g = f.put (at_ ++ [p.name]) (.file bytes) := by
    cases hget : f.get? (at_ ++ [p.name]) with
    | none => rw [hget] at h; cases h; rfl
    | some n =>
      cases n with
      | directory => exact absurd hget hfree
      | file _ => rw [hget] at h; cases h; rfl
  have hlong : isTooLong p.name = false := by
    rw [isTooLong, decide_eq_false_iff_not]
    omega
  have hnameable : nameable p = .ok () := by
    rw [leavesNoRoom, Bool.or_eq_true, not_or, decide_eq_true_eq, decide_eq_true_eq] at hpath
    have hparts : ¬ p.parts.any (·.contains '\x00') = true := by
      rw [parts_eq hgood.1, List.any_append, nameable_eq_ok hparent]
      simpa using hnul
    rw [nameable, if_neg hparts, if_neg hpath.2]
  subst hg
  refine ⟨at_ ++ [p.name], ?_, ?_, rfl, fun other hother => get?_put_of_ne hother⟩
  · rw [locate, hnameable]
    show (f.put (at_ ++ [p.name]) (.file bytes)).walk (f.start p) p.parts = _
    rw [parts_eq hgood.1]
    exact walk_put_append hwalk hdirectory hgood.2 hlong hfree
  · exact get?_put_self (List.append_ne_nil_of_right_ne_nil _ (List.cons_ne_nil _ _))

end Files

end Tracewright
