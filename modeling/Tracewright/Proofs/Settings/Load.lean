/-
  Tracewright.Proofs.Settings.Load

  Loading a file over settings.  Nothing is touched before the document of the
  file is there, and only a mapping is laid over the settings.  If one comes in
  one way only to each mapping of the settings where the document has one, too,
  that cannot fail, and what is found afterwards is known path by path; what
  stands in several places changes in all of them.

    * `load_of_read`   — a file that can be read, and its document.
    * `CanTake`        — settings over which a document can be laid.
    * `IsOverlaid`     — what is found at all paths.
    * `load_merges`    — what a load does to the settings.
    * `load_aliased`   — settings in which a mapping is shared.
-/
import Tracewright.Proofs.Files.Tree
import Tracewright.Proofs.Settings.InPlace
import Tracewright.Proofs.Settings.Merge

namespace Tracewright.Settings

open Memory (IsCopied IsSame)

variable {s new : Settings} {platform : Platform} {files : Files} {file : Text} {d : Document}

/-! ## Documents -/

/-- A document that is there is laid over the settings. -/
theorem load_of_read (s : Settings) (h : platform.load files (Path.ofText file) = .ok d) :
    load platform files file s = overlay file d s := by
  have hread : ∃ bytes, files.read (Path.ofText file) = .ok bytes := by
    rw [Platform.load] at h
    cases hread : files.read (Path.ofText file) with
    | ok bytes => exact ⟨bytes, rfl⟩
    | error fault => rw [hread] at h; cases h
  obtain ⟨bytes, hread⟩ := hread
  obtain ⟨n, hprobe⟩ := Files.probe_of_read hread
  have hdocument : (liftM (document platform files file) : Action Settings Document) s =
      (pure d, s) := by
    rw [document, h]
    rfl
  rw [load, hprobe]
  exact Action.bind_of_pure hdocument _

theorem overlay_of_null (file : Text) (h : d.root = .scalar .null) (s : Settings) :
    overlay file d s = (pure (), s) := by
  rw [overlay, if_pos h]
  rfl

theorem overlay_of_not_mapping (file : Text) (h : d.entries? = none) (s : Settings) :
    (overlay file d s).2 = s := by
  have hnone : ¬ d.entries?.isSome = true := by
    rw [h]
    nofun
  rw [overlay, if_neg hnone]
  split_ifs <;> rfl

/-- A mapping is laid over the settings, and that is told. -/
theorem overlay_of_mapping {s' : Settings} (file : Text) (h : d.entries?.isSome = true)
    (hlay : lay d s = (pure (), s')) :
    (overlay file d s).1.result = .ok () ∧ (overlay file d s).2 = s' := by
  have hnull : d.root ≠ .scalar .null := by
    intro hnull
    rw [Document.entries?, hnull] at h
    cases h
  rw [overlay, if_neg hnull, if_pos h, Action.bind_of_pure hlay]
  exact ⟨rfl, rfl⟩

/-- Without a document the load fails before the settings are touched. -/
theorem exists_document_error {fault : Yaml.Fault}
    (h : platform.load files (Path.ofText file) = .error fault) :
    ∃ e, (document platform files file).result = .error e := by
  unfold document
  rw [h]
  cases fault with
  | os o => cases o <;> exact ⟨_, rfl⟩
  | _ => exact ⟨_, rfl⟩

/-- Whatever is not a mapping leaves the settings as they are. -/
theorem load_of_no_mapping (s : Settings)
    (h : ∀ d, platform.load files (Path.ofText file) = .ok d → d.entries? = none) :
    (load platform files file s).2 = s := by
  cases hload : platform.load files (Path.ofText file) with
  | ok d =>
    rw [load_of_read s hload]
    exact overlay_of_not_mapping file (h d hload) s
  | error fault =>
    obtain ⟨e, hdocument⟩ := exists_document_error hload
    rw [load]
    cases files.probe (Path.ofText file) with
    | error fault => rfl
    | ok there =>
      cases there with
      | none => rfl
      | some n =>
        exact congrArg Prod.snd (Action.bind_of_error (x := liftM (document platform files file))
          hdocument (overlay file))

/-! ## Taking up a document -/

/-- What stands at a path of keys. -/
def at? (s : Settings) (p : List Scalar) : Option Item := s.memory.at? (.ref s.root) p

/-- What stands at a path of keys, if it is a mapping. -/
def mappingAt? (s : Settings) (p : List Scalar) : Option (Mapping Item) :=
  s.memory.mappingAt? (.ref s.root) p

/-- The memory of settings with the objects of a document. -/
abbrev taking (s : Settings) (d : Document) : Memory := s.memory.append d.objects

/-- Where the document starts among them. -/
abbrev layer (s : Settings) (d : Document) : Item := d.root.shift s.memory.objects.length

theorem IsClosed.isSame_taking (h : s.IsClosed) (d : Document) :
    IsSame s.memory (s.taking d) (.ref s.root) := fun _ hq =>
  Memory.object?_append_of_lt (h.memory.lt_length h.root_isBelow hq) _

theorem isCopied_taking (s : Settings) (d : Document) (depths : Depths) :
    IsCopied (d.memory depths) (s.taking d) s.memory.objects.length d.root :=
  Memory.isCopied_of_document depths (fun r _ => Memory.object?_append_add s.memory d.objects r)
    d.root_isBelow

theorem mapping?_layer (s : Settings) (hentries : d.entries?.isSome = true) :
    ∃ entries, (s.taking d).mapping? (s.layer d) = some entries := by
  have hlayer := (isCopied_taking s d s.memory.depths).mapping?_eq
  rw [← d.entries?_eq] at hlayer
  obtain ⟨entries, hentries⟩ := Option.isSome_iff_exists.1 hentries
  rw [hentries] at hlayer
  exact ⟨_, hlayer⟩

/-- The document can be laid over the settings if one can go as deep as their mappings meet: it has
    objects of its own, and no key stands twice in them. -/
theorem IsClosed.canLay (h : s.IsClosed) (d : Document) (depths : Depths) {depth : Nat}
    (hdepth : ∀ p, (s.mappingAt? p).isSome = true →
      ((d.memory depths).mappingAt? d.root p).isSome = true → p.length < depth) :
    Memory.CanLay (s.taking d) (.ref s.root) (s.layer d) depth := by
  have hsame := h.isSame_taking d
  have hcopied := isCopied_taking s d depths
  refine ⟨fun {p b base layer} hmeet hreach => ?_, fun {p b base layer} hmeet => hdepth p ?_ ?_,
    fun {p layer} hlayer => ?_⟩
  · -- the mapping is one of the settings, and the document has come behind them
    have hlt : b < s.memory.objects.length :=
      h.memory.lt_length h.root_isBelow (hsame.reaches_iff.1 hmeet.reaches)
    obtain ⟨r, rfl, -⟩ := hcopied.reaches_iff.1 hreach
    omega
  · rw [mappingAt?, ← hsame.mappingAt?_eq, hmeet.mappingAt?_eq]
    rfl
  · have hlayer := hmeet.layer_eq
    rw [hcopied.mappingAt?_eq, Option.map_eq_some_iff] at hlayer
    obtain ⟨entries, hentries, -⟩ := hlayer
    rw [hentries]
    rfl
  · rw [hcopied.mappingAt?_eq, Option.map_eq_some_iff] at hlayer
    obtain ⟨entries, hentries, rfl⟩ := hlayer
    obtain ⟨r, -, hr⟩ := Memory.mappingAt?_eq_some_iff.1 hentries
    exact (Mapping.isDistinct_mapValues_iff _).2
      (d.distinct _ (List.mem_of_getElem? (Memory.mapping?_ref_eq_some_iff.1 hr)))

/-- A mapping is laid over the settings. -/
theorem lay_of_run {m' : Memory} {l : Nat} (hroot : s.layer d = .ref l)
    (hrun : Memory.mergeInto s.memory.depths.merging s.root l (s.taking d) = (pure (), m')) :
    lay d s = (pure (), { s with memory := m' }) := by
  have hroot' : d.root.shift s.memory.objects.length = .ref l := hroot
  rw [lay, Memory.adopt, hroot']
  show acting (Memory.mergeInto s.memory.depths.merging s.root l)
    { s with memory := s.taking d } = _
  rw [acting, hrun]

/-- Whatever becomes of it, every reference leads to an object. -/
theorem IsClosed.lay (h : s.IsClosed) (d : Document) : (lay d s).2.IsClosed := by
  have htaking := h.memory.isGrown_append d
  rw [Settings.lay, Memory.adopt]
  cases d.root.shift s.memory.objects.length with
  | scalar v => exact h.of_isGrown htaking
  | ref l => exact h.of_isGrown (htaking.trans (Memory.isGrown_mergeInto htaking.closed _ _ _))

theorem IsClosed.overlay (h : s.IsClosed) (file : Text) (d : Document) :
    (overlay file d s).2.IsClosed := by
  rw [Settings.overlay]
  split_ifs
  · exact h
  · cases hresult : (Settings.lay d s).1.result with
    | error e =>
      rw [Action.bind_of_error hresult]
      exact h.lay d
    | ok a =>
      rw [Action.bind_of_ok hresult]
      exact h.lay d
  · exact h

theorem IsClosed.load (h : s.IsClosed) (platform : Platform) (files : Files) (file : Text) :
    (load platform files file s).2.IsClosed := by
  cases hload : platform.load files (Path.ofText file) with
  | ok d =>
    rw [load_of_read s hload]
    exact h.overlay file d
  | error fault =>
    rw [load_of_no_mapping s fun d hd => by rw [hload] at hd; cases hd]
    exact h

/-! ## What is found -/

/-- A document can be laid over settings: one comes in one way only to each of their mappings at a
    path where the document has one, too, and one can go as deep as that. -/
structure CanTake (s : Settings) (d : Document) : Prop where
  once : ∀ p b, s.at? p = some (.ref b) → (s.mappingAt? p).isSome = true →
    ((d.memory s.memory.depths).mappingAt? d.root p).isSome = true →
    s.memory.IsReachedOnce (.ref s.root) b
  lt_depth : ∀ p, (s.mappingAt? p).isSome = true →
    ((d.memory s.memory.depths).mappingAt? d.root p).isSome = true →
    p.length < s.memory.depths.merging

/-- What is found in settings, path by path, after something has been laid over the old ones. -/
structure IsOverlaid (old new : Settings) (m : Memory) (layer : Item) : Prop where
  /-- What is no mapping in the layer stands at its path, among the objects that have been taken
      up, and holds what it held. -/
  leaf : ∀ p v, m.at? layer p = some v → m.mapping? v = none →
    new.at? p = some (v.shift old.memory.objects.length) ∧
      new.memory.Alike (v.shift old.memory.objects.length) m v
  /-- Nothing of what was below is left. -/
  below : ∀ q v k p, m.at? layer q = some v → m.mapping? v = none → new.at? (q ++ k :: p) = none
  /-- Under a key that a mapping of the layer has not, what was there stays and holds what it
      held, ... -/
  kept : ∀ q entries base k p, m.mappingAt? layer q = some entries → entries.get? k = none →
    old.mappingAt? q = some base → new.at? (q ++ k :: p) = old.at? (q ++ k :: p) ∧
      ∀ i, old.at? (q ++ k :: p) = some i → new.memory.Alike i old.memory i
  /-- ... if there was a mapping at all. -/
  absent : ∀ q entries k p, m.mappingAt? layer q = some entries → entries.get? k = none →
    old.mappingAt? q = none → new.at? (q ++ k :: p) = none
  /-- Where the layer has a mapping there is one, with the keys of both. -/
  mapping : ∀ p entries, m.mappingAt? layer p = some entries →
    ∃ entries', new.mappingAt? p = some entries' ∧ ∀ k, (entries'.get? k).isSome = true ↔
      (entries.get? k).isSome = true ∨
        ∃ base, old.mappingAt? p = some base ∧ (base.get? k).isSome = true

/-- What is found in a memory that has taken up the document is what is found in the document. -/
theorem IsClosed.isOverlaid {m' : Memory} (h : s.IsClosed)
    (hlaid : Memory.Overlaid (s.taking d) m' (.ref s.root) (s.layer d)) :
    IsOverlaid s { s with memory := m' } (d.memory s.memory.depths) d.root := by
  have hsame := h.isSame_taking d
  have hcopied := isCopied_taking s d s.memory.depths
  -- what stands in the document stands further up in the memory, and the settings where they were
  have hat {p : List Scalar} {v : Item} (hv : (d.memory s.memory.depths).at? d.root p = some v) :
      (s.taking d).at? (s.layer d) p = some (v.shift s.memory.objects.length) := by
    rw [hcopied.at?_eq, hv]
    rfl
  have hnone {p : List Scalar} {v : Item} (hv : (d.memory s.memory.depths).at? d.root p = some v)
      (hleaf : (d.memory s.memory.depths).mapping? v = none) :
      (s.taking d).mapping? (v.shift s.memory.objects.length) = none := by
    rw [(hcopied.of_at? hv).mapping?_eq, hleaf]
    rfl
  have hmapping {p : List Scalar} {entries : Mapping Item}
      (hentries : (d.memory s.memory.depths).mappingAt? d.root p = some entries) :
      (s.taking d).mappingAt? (s.layer d) p =
        some (entries.mapValues (Item.shift s.memory.objects.length)) := by
    rw [hcopied.mappingAt?_eq, hentries]
    rfl
  have hkey {entries : Mapping Item} {k : Scalar} (hk : entries.get? k = none) :
      (entries.mapValues (Item.shift s.memory.objects.length)).get? k = none := by
    rw [Mapping.get?_mapValues, hk]
    rfl
  have hold (p : List Scalar) : (s.taking d).mappingAt? (.ref s.root) p = s.mappingAt? p :=
    hsame.mappingAt?_eq p
  refine ⟨fun p v hv hleaf => ?_, fun q v k p hv hleaf => ?_,
    fun q entries base k p hentries hk hbase => ?_, fun q entries k p hentries hk hbase => ?_,
    fun p entries hentries => ?_⟩
  · obtain ⟨hnew, hsame'⟩ := hlaid.leaf p _ (hat hv) (hnone hv hleaf)
    exact ⟨hnew, hsame'.alike.trans (hcopied.of_at? hv).alike⟩
  · exact hlaid.below q _ k p (hat hv) (hnone hv hleaf)
  · obtain ⟨hnew, hkept⟩ := hlaid.kept q _ base k p (hmapping hentries) (hkey hk)
      ((hold q).trans hbase)
    rw [hsame.at?_eq] at hnew hkept
    exact ⟨hnew, fun i hi => (hkept i hi).alike.trans (hsame.of_at? hi).alike⟩
  · exact hlaid.absent q _ k p (hmapping hentries) (hkey hk) ((hold q).trans hbase)
  · obtain ⟨entries', hnew, hkeys⟩ := hlaid.mapping p _ (hmapping hentries)
    refine ⟨entries', hnew, fun k => ?_⟩
    rw [hkeys k, Mapping.get?_mapValues, Option.isSome_map, hold]

/-! ## Loading -/

/-- Settings that hold the same, however deep one goes. -/
def HoldSame (s s' : Settings) : Prop :=
  s.memory.Alike (.ref s.root) s'.memory (.ref s'.root)

/-- What a load leaves that lays a document over settings, and that the same file changes nothing
    after that if one can go as deep as the mappings of the document. -/
structure IsLoaded (platform : Platform) (files : Files) (file : Text) (s : Settings)
    (d : Document) (new : Settings) : Prop where
  result_eq : (load platform files file s).1.result = .ok ()
  state_eq : (load platform files file s).2 = new
  overlaid : IsOverlaid s new (d.memory s.memory.depths) d.root
  again : (∀ p, ((d.memory s.memory.depths).mappingAt? d.root p).isSome = true →
      p.length < s.memory.depths.merging) →
    (load platform files file new).1.result = .ok () ∧
      HoldSame (load platform files file new).2 new

/-- A document that has been laid over settings is there already when it is laid once more. -/
theorem IsOverlaid.covers (h : IsOverlaid s new (d.memory s.memory.depths) d.root)
    (hnew : new.IsClosed) :
    Memory.Covers (new.taking d) (.ref new.root) (new.layer d) := by
  have hsame := hnew.isSame_taking d
  have hcopied := isCopied_taking new d s.memory.depths
  intro p v hv
  rw [hcopied.at?_eq, Option.map_eq_some_iff] at hv
  obtain ⟨v, hv, rfl⟩ := hv
  rw [hsame.at?_eq]
  cases hmapping : (d.memory s.memory.depths).mapping? v with
  | none =>
    obtain ⟨hat, halike⟩ := h.leaf p v hv hmapping
    exact ⟨_, hat, .inl ((hsame.of_at? hat).alike.trans
      (halike.trans (hcopied.of_at? hv).alike.symm))⟩
  | some entries =>
    have hentries : (d.memory s.memory.depths).mappingAt? d.root p = some entries := by
      rw [Memory.mappingAt?, hv]
      exact hmapping
    obtain ⟨entries', hnew', -⟩ := h.mapping p entries hentries
    obtain ⟨r, hr, hr'⟩ := Memory.mappingAt?_eq_some_iff.1 hnew'
    refine ⟨.ref r, hr, .inr ⟨?_, ?_⟩⟩
    · rw [(hsame.of_at? hr).mapping?_eq, hr']
      rfl
    · rw [(hcopied.of_at? hv).mapping?_eq, hmapping]
      rfl

/-- What has been laid over settings can be laid over them once more, and they hold the same. -/
theorem exists_lay_again (h : IsOverlaid s new (d.memory s.memory.depths) d.root)
    (hnew : new.IsClosed) (hentries : d.entries?.isSome = true)
    (hdepth : ∀ p, ((d.memory s.memory.depths).mappingAt? d.root p).isSome = true →
      p.length < new.memory.depths.merging) :
    ∃ s', lay d new = (pure (), s') ∧ HoldSame s' new := by
  obtain ⟨base, hbase⟩ := Option.isSome_iff_exists.1 hnew.root
  obtain ⟨entries, hlayer⟩ := mapping?_layer new hentries
  obtain ⟨l, hl, -⟩ := Memory.mapping?_eq_some_iff.1 hlayer
  have hsame := hnew.isSame_taking d
  have hcan := hnew.canLay d s.memory.depths fun p _ hp => hdepth p hp
  have hcovers := h.covers hnew
  rw [hl] at hlayer hcan hcovers
  obtain ⟨m', hrun, hrelaid⟩ := Memory.exists_isRelaying (hsame.mapping?_eq.trans hbase) hlayer
    hcan hcovers (Memory.isVariant_self _) fun _ _ => rfl
  exact ⟨_, lay_of_run hl hrun, (hrelaid.isVariant.alike _).trans hsame.alike⟩

/-- The mappings that meet one of the document are reached once, as they were. -/
theorem CanTake.meetsOnce (h : s.CanTake d) (hs : s.IsClosed) :
    Memory.MeetsOnce (s.taking d) (.ref s.root) (s.layer d) where
  once {p b base layer} hmeet := by
    have hsame := hs.isSame_taking d
    have hlayer := hmeet.layer_eq
    rw [(isCopied_taking s d s.memory.depths).mappingAt?_eq, Option.map_eq_some_iff] at hlayer
    obtain ⟨entries, hentries, -⟩ := hlayer
    refine hsame.isReachedOnce_iff.2 (h.once p b ?_ ?_ (by rw [hentries]; rfl))
    · rw [at?, ← hsame.at?_eq, hmeet.at_base]
    · rw [mappingAt?, ← hsame.mappingAt?_eq, hmeet.mappingAt?_eq]
      rfl

/-- A document that can be laid over settings is laid over them. -/
theorem exists_lay (hentries : d.entries?.isSome = true) (hs : s.IsClosed) (htake : s.CanTake d) :
    ∃ new, lay d s = (pure (), new) ∧ new.memory.depths = s.memory.depths ∧
      IsOverlaid s new (d.memory s.memory.depths) d.root := by
  obtain ⟨base, hbase⟩ := Option.isSome_iff_exists.1 hs.root
  obtain ⟨entries, hlayer⟩ := mapping?_layer s hentries
  obtain ⟨l, hl, -⟩ := Memory.mapping?_eq_some_iff.1 hlayer
  have hbase' := (hs.isSame_taking d).mapping?_eq.trans hbase
  have hcan := hs.canLay d s.memory.depths htake.lt_depth
  have honce := htake.meetsOnce hs
  rw [hl] at hlayer hcan honce
  obtain ⟨m', hrun, hlaid⟩ := Memory.exists_isLaid hbase' hlayer hcan honce
  have hoverlaid := hlaid.overlaid hcan honce hbase' hlayer
  rw [← hl] at hoverlaid
  exact ⟨_, lay_of_run hl hrun, hlaid.depths_eq, hs.isOverlaid hoverlaid⟩

theorem exists_isLoaded (hd : platform.load files (Path.ofText file) = .ok d)
    (hentries : d.entries?.isSome = true) (hs : s.IsClosed) (htake : s.CanTake d) :
    ∃ new, IsLoaded platform files file s d new := by
  obtain ⟨new, hlay, hdepths, hoverlaid⟩ := exists_lay hentries hs htake
  have hnew : new.IsClosed := by
    have hclosed := hs.lay d
    rwa [hlay] at hclosed
  have hloaded := overlay_of_mapping file hentries hlay
  rw [← load_of_read s hd] at hloaded
  refine ⟨new, hloaded.1, hloaded.2, hoverlaid, fun hdepth => ?_⟩
  rw [← hdepths] at hdepth
  -- all that the file says is there now, so laying it once more leaves a variant
  obtain ⟨s', hagain, hsame⟩ := exists_lay_again hoverlaid hnew hentries (hdepths ▸ hdepth)
  have hloaded' := overlay_of_mapping file hentries hagain
  rw [← load_of_read new hd] at hloaded'
  exact ⟨hloaded'.1, hloaded'.2 ▸ hsame⟩

/-- What a load does to settings.  With a failure before there is a mapping to lay over them, and
    with a file that is missing or holds nothing, they stay as they are.  If the document can be
    laid over them, the load succeeds: the mapping is laid over them, level by level, and the same
    file changes nothing after that.  So if the load of such a file fails, the settings stay as they
    are. -/
theorem load_merges (platform : Platform) (files : Files) (file : Text) (s : Settings)
    (hempty : platform.read [] = .ok (.ofScalar .null)) :
    ((∀ d, platform.load files (Path.ofText file) = .ok d → d.entries? = none) →
      (load platform files file s).2 = s) ∧
    (files.probe (Path.ofText file) = .ok none ∨ files.read (Path.ofText file) = .ok [] ∨
        (∃ d, platform.load files (Path.ofText file) = .ok d ∧ d.root = .scalar .null) →
      (load platform files file s).1.result = .ok () ∧ (load platform files file s).2 = s) ∧
    (s.IsClosed → (load platform files file s).2.IsClosed ∧
      (∀ d, platform.load files (Path.ofText file) = .ok d → d.entries?.isSome = true →
        s.CanTake d → ∃ new, IsLoaded platform files file s d new) ∧
      ((∀ d, platform.load files (Path.ofText file) = .ok d → s.CanTake d) →
        ∀ e, (load platform files file s).1.result = .error e →
          (load platform files file s).2 = s)) := by
  refine ⟨load_of_no_mapping s, fun h => ?_, fun hs => ⟨hs.load platform files file,
    fun d hd hentries htake => exists_isLoaded hd hentries hs htake, fun htake e he => ?_⟩⟩
  · have hnull (d : Document) (hd : platform.load files (Path.ofText file) = .ok d)
        (hroot : d.root = .scalar .null) : (load platform files file s).1.result = .ok () ∧
          (load platform files file s).2 = s := by
      rw [load_of_read s hd, overlay_of_null file hroot]
      exact ⟨rfl, rfl⟩
    rcases h with hmissing | hread | ⟨d, hd, hroot⟩
    · rw [load, hmissing]
      exact ⟨rfl, rfl⟩
    · refine hnull (.ofScalar .null) ?_ rfl
      rw [Platform.load, hread]
      exact hempty
    · exact hnull d hd hroot
  · -- a mapping would have been laid over the settings
    refine load_of_no_mapping s fun d hd => ?_
    cases hentries : d.entries? with
    | none => rfl
    | some entries =>
      obtain ⟨new, hloaded⟩ := exists_isLoaded hd (by rw [hentries]; rfl) hs (htake d hd)
      rw [hloaded.result_eq] at he
      cases he

/-- Any document can be laid over the usual settings, which are two mappings deep. -/
theorem canTake_usual (depths : Depths) (d : Document) : (usual depths).CanTake d where
  once p b _ _ _ := by
    have hnodup : (usual depths).memory.refs.Nodup := by
      show [1, 2, 3, 4, 6, 7, 8, 9].Nodup
      decide
    have hroot : (usual depths).root ∉ (usual depths).memory.refs := by
      show 5 ∉ [1, 2, 3, 4, 6, 7, 8, 9]
      decide
    exact Memory.isReachedOnce_of_nodup hnodup hroot b
  lt_depth p hp _ := by
    have hshallow : (usual depths).memory.isShallow 2 (.ref (usual depths).root) = true := rfl
    exact Nat.lt_of_lt_of_le (Memory.length_lt_of_isShallow hshallow hp) depths.two_le_merging

/-- A file with a number in place of a section, and a mapping under two names, one of them the name
    of a file. -/
def replacing : Files where
  nodes := [(["config.yaml"], .file (Text.Utf8.encode
    "generator: 7\noutput:\n  file: &x\n    deep: x\n  copy: *x\n"))]
  home := []

/-- The section is gone with all its settings, and the other one has kept what the file does not
    speak of. -/
theorem load_merges_replacing :
    Yaml.platform.read [] = .ok (.ofScalar .null) ∧ (usual Yaml.platform.depths).IsClosed ∧
    ∃ new, (load Yaml.platform replacing "config.yaml" (usual Yaml.platform.depths)).2 = new ∧
      new.IsClosed ∧ new.at? [.text "generator"] = some (.scalar (.int 7)) ∧
      new.at? [.text "generator", .text "pid"] = none ∧
      new.at? [.text "output", .text "copy", .text "deep"] = some (.scalar (.text "x")) ∧
      new.at? [.text "output", .text "debug_marks"] = some (.scalar (.bool false)) ∧
      HoldSame (load Yaml.platform replacing "config.yaml" new).2 new := by
  let s := usual Yaml.platform.depths
  have hempty : Yaml.platform.read [] = .ok (.ofScalar .null) := rfl
  have hs : s.IsClosed := isClosed_usual _
  obtain ⟨-, -, hmapping⟩ := load_merges Yaml.platform replacing "config.yaml" s hempty
  obtain ⟨hclosed, hload, -⟩ := hmapping hs
  -- the document, and what is looked at of it
  have hread : ((Yaml.platform.load replacing (Path.ofText "config.yaml")).toOption.any fun d =>
      let m := d.memory s.memory.depths
      d.entries?.isSome && m.isShallow 3 d.root &&
        decide (m.at? d.root [.text "generator"] = some (.scalar (.int 7))) &&
        decide (m.at? d.root [.text "output", .text "copy", .text "deep"] =
          some (.scalar (.text "x"))) &&
        (m.mappingAt? d.root [.text "output"]).any fun entries =>
          (entries.get? (.text "debug_marks")).isNone) = true := by
    decide +kernel
  obtain ⟨d, hd, hparts⟩ := (Option.any_eq_true _ _).1 hread
  simp only [Bool.and_eq_true, decide_eq_true_eq] at hparts
  obtain ⟨⟨⟨⟨hentries, hshallow⟩, hgenerator⟩, hdeep⟩, houtput⟩ := hparts
  obtain ⟨entries, hentries', hmarks⟩ := (Option.any_eq_true _ _).1 houtput
  obtain ⟨new, hnew⟩ := hload d (eq_ok_of_toOption hd) hentries (canTake_usual _ d)
  have hlaid := hnew.overlaid
  obtain ⟨base, hbase⟩ : ∃ base, s.mappingAt? [.text "output"] = some base := ⟨_, rfl⟩
  have hmarks' := Option.isNone_iff_eq_none.1 hmarks
  refine ⟨hempty, hs, new, hnew.state_eq, hnew.state_eq ▸ hclosed,
    (hlaid.leaf _ _ hgenerator rfl).1, hlaid.below _ _ (.text "pid") [] hgenerator rfl,
    (hlaid.leaf _ _ hdeep rfl).1,
    (hlaid.kept _ entries base (.text "debug_marks") [] hentries' hmarks' hbase).1,
    (hnew.again fun p hp => ?_).2⟩
  exact Nat.lt_of_lt_of_le (Memory.length_lt_of_isShallow hshallow hp) (by decide)

/-- A file that speaks of the one name only. -/
def speaking : Files where
  nodes := [(["config.yaml"], .file (Text.Utf8.encode "a: \x7bk: 2\x7d\n"))]
  home := []

/-- One mapping stands under two names, so a file that speaks of the one changes the other. -/
theorem load_aliased :
    let loaded := load Yaml.platform aliased "config.yaml" (usual Yaml.platform.depths)
    let again := load Yaml.platform speaking "config.yaml" loaded.2
    loaded.1.result = .ok () ∧ again.1.result = .ok () ∧
      (Yaml.platform.load speaking (Path.ofText "config.yaml")).toOption.any (fun d =>
        (d.entries?.any fun entries => (entries.getText? "b").isNone)) = true ∧
      loaded.2.get "b.k" .null = .int 1 ∧ again.2.get "b.k" .null = .int 2 := by
  refine ⟨eq_ok_of_toOption ?_, eq_ok_of_toOption ?_, ?_,
    Value.eq_scalar_of_scalar? ?_, Value.eq_scalar_of_scalar? ?_⟩ <;> decide +kernel

end Tracewright.Settings
