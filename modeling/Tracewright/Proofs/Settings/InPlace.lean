/-
  Tracewright.Proofs.Settings.InPlace

  Putting an item under a dotted name, in place.  It fails where something else
  than a mapping stands on the way, and changes nothing then.  Otherwise one
  mapping changes, the last one on the way that was there; if one comes to it in
  one way only, nothing else under any other name has changed.

    * `path_append`    — a name that goes on behind a dot.
    * `IsUnshared`     — the mapping that changes is at its place only.
    * `IsPut`          — what settings hold afterwards, name by name.
    * `assign_lawful`  — all of this about settings.
    * `assign_aliased` — settings in which a mapping is shared.
-/
import Tracewright.Proofs.Settings.Closed
import Tracewright.Proofs.Text.Seam
import Tracewright.Settings.Load
import Tracewright.Yaml.Document

namespace Tracewright.Settings

variable {s : Settings} {key : Text} {x : Item}

/-! ## Names with dots -/

/-- A name that goes on behind a dot has the parts of both sides. -/
theorem path_append (a b : Text) : path (a ++ '.' :: b) = path a ++ path b := by
  have hdot : ['.'] ≠ [] := List.cons_ne_nil _ _
  unfold path
  induction a with
  | nil =>
    have hprefix : ['.'].isPrefixOf ('.' :: b) = true := rfl
    rw [List.nil_append, Text.split_cons hdot, if_pos hprefix, Text.split_nil hdot]
    rfl
  | cons c a ih =>
    rw [List.cons_append, Text.split_cons hdot, Text.split_cons hdot]
    by_cases hc : ['.'].isPrefixOf (c :: a) = true
    · have hc' : ['.'].isPrefixOf (c :: (a ++ '.' :: b)) = true := hc
      rw [if_pos hc, if_pos hc']
      exact congrArg (List.cons []) ih
    · have hc' : ¬ ['.'].isPrefixOf (c :: (a ++ '.' :: b)) = true := hc
      rw [if_neg hc, if_neg hc', ih]
      -- the character belongs to the first part, and there is one on the left side
      cases hsplit : Text.split ['.'] a with
      | nil => exact absurd hsplit (Text.split_ne_nil _ _)
      | cons part parts => rfl

theorem path_ne_nil (key : Text) : path key ≠ [] := Text.split_ne_nil _ _

/-! ## Settings -/

theorem get_eq (s : Settings) (key : Text) (default : Value) :
    s.get key default = ((s.item? key).map s.memory.see).getD default := by
  rw [get]
  cases s.item? key <;> rfl

/-- One comes in one way only to the mapping that changes when an item is put under a name, and
    does not come to it from the item. -/
def IsUnshared (s : Settings) (key : Text) (x : Item) : Prop :=
  ∀ r, s.memory.PutsInto (.ref s.root) (path key) r →
    s.memory.IsReachedOnce (.ref s.root) r ∧ ¬ s.memory.Reaches x r

/-- What settings hold after an item has been put under a dotted name. -/
structure IsPut (old new : Settings) (key : Text) (x : Item) : Prop where
  /-- The item stands under the name, and all that it leads to is what it was. -/
  at_name : new.item? key = some x ∧ Memory.IsSame old.memory new.memory x ∧
    ∀ d, new.get key d = old.memory.see x
  /-- Where neither name leads through the other, there is what was there. -/
  apart : ∀ other, ¬ path key <+: path other → ¬ path other <+: path key →
    new.item? other = old.item? other ∧
      (∀ i, old.item? other = some i → Memory.IsSame old.memory new.memory i) ∧
      ∀ d, new.get other d = old.get other d
  /-- Below the name there is what stands in the item. -/
  below : ∀ rest, new.item? (key ++ '.' :: rest) = old.memory.find? x (path rest) ∧
    ∀ d, new.get (key ++ '.' :: rest) d =
      ((old.memory.find? x (path rest)).map old.memory.see).getD d
  /-- Above the name there are mappings.  Beside the part of the name that leads on, each has the
      entries that it had; where nothing was, it has no others. -/
  above : ∀ p k ks, path key = p ++ k :: ks →
    Memory.IsAbove old.memory new.memory (.ref old.root) p k

/-- An item that can be put is put, into a mapping at its own place. -/
theorem exists_isPut (h : s.IsClosed) (hx : x.IsBelow s.memory.objects.length)
    (hopen : ¬ s.memory.IsBlocked (.ref s.root) (path key)) (hunshared : s.IsUnshared key x) :
    ∃ new, assign key x s = (pure (), new) ∧ IsPut s new key x := by
  -- the mapping in which the walk comes to its end, and what it leaves there
  obtain ⟨p, k, ks, r, entries, hpath, hp, hr, hlast, hrun⟩ :=
    Memory.exists_site x (path_ne_nil key) hopen
  obtain ⟨m', j, hrun', hput⟩ := Memory.exists_hasPutIn x hr hlast
  have hinto : s.memory.PutsInto (.ref s.root) (path key) r := by
    refine ⟨p, k, ks, hpath, hp, by rw [hr]; rfl, hlast.imp id fun hk => ?_⟩
    rw [Memory.find?_cons hr, hk]
    rfl
  obtain ⟨honce, hapart⟩ := hunshared r hinto
  have hsite : Memory.IsSite s.memory (.ref s.root) x p r entries :=
    ⟨h.memory, h.root_isBelow, hx, hp, hr, honce, hapart⟩
  have hsame := hput.isSame hsite hx hapart
  have hkey : m'.find? (.ref s.root) (path key) = some x := by
    rw [hpath]
    exact hput.find?_key hsite
  refine ⟨⟨m', s.root⟩, by rw [assign, acting, hrun, hrun'], ⟨hkey, hsame, fun d => ?_⟩,
    fun other hother hkey' => ?_, fun rest => ?_, fun p₁ k₁ ks₁ hsplit => ?_⟩
  · rw [get_eq, item?, hkey]
    exact hsame.see_eq hput.depths_eq
  · rw [hpath] at hother hkey'
    obtain ⟨hitem, hsame'⟩ := hput.find?_of_apart hsite hlast hother hkey'
    refine ⟨hitem, hsame', fun d => ?_⟩
    rw [get_eq, get_eq, item?, item?, hitem]
    cases hi : s.memory.find? (.ref s.root) (path other) with
    | none => rfl
    | some i => exact (hsame' i hi).see_eq hput.depths_eq
  · have hitem : m'.find? (.ref s.root) (path (key ++ '.' :: rest)) =
        s.memory.find? x (path rest) := by
      rw [path_append, Memory.find?_append, hkey, Option.bind_some, hsame.find?_eq]
    refine ⟨hitem, fun d => ?_⟩
    rw [get_eq, item?, hitem]
    cases hi : s.memory.find? x (path rest) with
    | none => rfl
    | some i =>
      rw [Memory.find?_eq_at?] at hi
      exact (hsame.of_at? hi).see_eq hput.depths_eq
  · rw [hpath] at hsplit
    exact hput.isAbove hsite hlast hsplit

/-- Putting an item under a dotted name fails exactly when something else than a mapping stands on
    the way, and leaves the settings as they are then; otherwise it succeeds.  If one comes in one
    way only to the mapping that changes, and not from the item, the item stands under the name and
    nothing else has changed. -/
theorem assign_lawful (s : Settings) (key : Text) (x : Item) :
    ((assign key x s).1.result = .error .wrongKind ↔
      s.memory.IsBlocked (.ref s.root) (path key)) ∧
    (s.memory.IsBlocked (.ref s.root) (path key) → (assign key x s).2 = s) ∧
    (¬ s.memory.IsBlocked (.ref s.root) (path key) → (assign key x s).1.result = .ok ()) ∧
    (s.IsClosed → x.IsBelow s.memory.objects.length → (assign key x s).2.IsClosed ∧
      (¬ s.memory.IsBlocked (.ref s.root) (path key) → s.IsUnshared key x →
        IsPut s (assign key x s).2 key x)) := by
  refine ⟨?_, fun hblocked => ?_, fun hopen => ?_, fun hclosed hx =>
    ⟨hclosed.assign hx key, fun hopen hunshared => ?_⟩⟩
  · rcases Memory.assignAt_outcome x (path_ne_nil key) s.memory (.ref s.root) with
      ⟨hblocked, hfail⟩ | ⟨hopen, m', hok⟩
    · rw [assign, acting, hfail]
      exact ⟨fun _ => hblocked, fun _ => rfl⟩
    · rw [assign, acting, hok]
      exact ⟨nofun, fun hblocked => absurd hblocked hopen⟩
  · rcases Memory.assignAt_outcome x (path_ne_nil key) s.memory (.ref s.root) with
      ⟨-, hfail⟩ | ⟨hopen, -⟩
    · rw [assign, acting, hfail]
    · exact absurd hblocked hopen
  · rcases Memory.assignAt_outcome x (path_ne_nil key) s.memory (.ref s.root) with
      ⟨hblocked, -⟩ | ⟨-, m', hok⟩
    · exact absurd hblocked hopen
    · rw [assign, acting, hok]
      rfl
  · obtain ⟨new, hrun, hput⟩ := exists_isPut hclosed hx hopen hunshared
    rw [hrun]
    exact hput

/-- The first settings of a program, with a mapping beside them. -/
def besides : Settings :=
  let s := usual Yaml.platform.depths
  { s with memory := s.memory.make (.map [(.text "a", .scalar (.int 1))]) }

/-- Nothing can be put below the name of a file, which is a value; a name with nothing between two
    dots is one like others. -/
theorem assign_lawful_besides :
    (assign "output.file.name" (.scalar (.int 1)) besides).2 = besides ∧
      besides.IsClosed ∧ besides.IsUnshared "output..deep" (.ref 10) ∧
      ∃ new, (assign "output..deep" (.ref 10) besides).2 = new ∧ new.IsClosed ∧
        new.get "output..deep.a" .null = .int 1 ∧ (∀ d, new.get "output..deep.b" d = d) ∧
        new.get "output.debug_marks" .null = .bool false := by
  have hblocked : besides.memory.IsBlocked (.ref besides.root) (path "output.file.name") :=
    ⟨["output", "file"], .scalar .null, by decide, by decide +kernel, rfl⟩
  have hclosed : besides.IsClosed := ⟨by unfold Memory.IsClosed; decide +kernel, rfl⟩
  have hunshared : besides.IsUnshared "output..deep" (.ref 10) := by
    have hnodup : besides.memory.refs.Nodup := by decide +kernel
    refine fun r hr => ⟨Memory.isReachedOnce_of_nodup hnodup (by decide +kernel) r, ?_⟩
    -- the mapping beside the settings leads to itself only, and the settings do not lead there
    rintro ⟨way, hway⟩
    have hself : r = 10 := by
      cases way with
      | nil => exact (Item.ref.inj (Option.some.inj hway)).symm
      | cons n way =>
        obtain ⟨r', o, i, hr', ho, hi, hrest⟩ := Memory.go?_cons_eq_some.1 hway
        cases hr'
        cases ho
        cases List.mem_singleton.1 (List.mem_of_getElem? hi)
        exact absurd ⟨way, hrest⟩ (Memory.not_reaches_scalar _ _ r)
    have hmem := Memory.mem_refs_of_reaches hr.reaches (by rw [hself]; decide)
    rw [hself] at hmem
    exact absurd hmem (by decide +kernel)
  obtain ⟨hfails, -, -, hput⟩ := assign_lawful besides "output..deep" (.ref 10)
  have hopen : ¬ besides.memory.IsBlocked (.ref besides.root) (path "output..deep") := by
    intro h
    have hok : (assign "output..deep" (.ref 10) besides).1.result.toOption = some () := by
      decide +kernel
    rw [hfails.2 h] at hok
    cases hok
  obtain ⟨hnew, hlaws⟩ := hput hclosed (show 10 < 11 by decide)
  have hlaws := hlaws hopen hunshared
  refine ⟨(assign_lawful besides "output.file.name" _).2.1 hblocked, hclosed, hunshared, _, rfl,
    hnew, ?_, fun d => ?_, ?_⟩
  · exact ((hlaws.below "a").2 .null).trans (Value.eq_scalar_of_scalar? (by decide +kernel))
  · have hnone : besides.memory.find? (.ref 10) (path "b") = none := by decide +kernel
    refine ((hlaws.below "b").2 d).trans ?_
    rw [hnone]
    rfl
  · exact ((hlaws.apart "output.debug_marks" (by decide) (by decide)).2.2 .null).trans
      (Value.eq_scalar_of_scalar? (by decide +kernel))

/-- A file in which one mapping stands under two names. -/
def aliased : Files where
  nodes := [(["config.yaml"], .file (Text.Utf8.encode "a: &x \x7bk: 1\x7d\nb: *x\n"))]
  home := []

/-- A name under the one changes the other, although neither name leads through the other. -/
theorem assign_aliased :
    let loaded := load Yaml.platform aliased "config.yaml" (usual Yaml.platform.depths)
    let assigned := assign "a.k" (.scalar (.int 5)) loaded.2
    loaded.1.result = .ok () ∧ assigned.1.result = .ok () ∧
      ¬ path "a.k" <+: path "b.k" ∧ ¬ path "b.k" <+: path "a.k" ∧
      loaded.2.get "b.k" .null = .int 1 ∧ assigned.2.get "b.k" .null = .int 5 := by
  refine ⟨eq_ok_of_toOption ?_, eq_ok_of_toOption ?_, by decide, by decide,
    Value.eq_scalar_of_scalar? ?_, Value.eq_scalar_of_scalar? ?_⟩ <;> decide +kernel

end Tracewright.Settings
