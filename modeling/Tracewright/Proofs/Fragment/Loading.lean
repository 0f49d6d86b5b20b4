/-
  Tracewright.Proofs.Fragment.Loading

  The packaged fragments are found and read: loading a fragment yields its
  contents, as they are.

    * `Packaged.contents`    — the contents of a packaged file.
    * `Store.read_packaged`  — the bytes of a packaged file are those of its
                               contents.
    * `Store.load_packaged`  — loading yields the contents.
-/
import Tracewright.Fragment.Source
import Tracewright.Proofs.Fragment.Forms
import Tracewright.Proofs.Run
import Tracewright.Proofs.Text.Utf8

namespace Tracewright

/-- An entry is found under its key, if no other entry has that key. -/
theorem lookup_of_mem {α β : Type} [BEq α] [LawfulBEq α] {l : List (α × β)} {a : α} {b : β}
    (hl : (l.map Prod.fst).Nodup) (h : (a, b) ∈ l) : l.lookup a = some b := by
  induction l with
  | nil => exact absurd h List.not_mem_nil
  | cons e l ih =>
    rw [List.map_cons, List.nodup_cons] at hl
    rcases List.mem_cons.1 h with rfl | h
    · rw [List.lookup_cons_self]
    -- an entry in front has another key, or the key would be there twice
    · have hne : a ≠ e.1 := fun he => hl.1 (he ▸ List.mem_map_of_mem (f := Prod.fst) h)
      rw [List.lookup_cons, beq_false_of_ne hne, ih hl.2 h]

namespace Packaged

/-! ## Contents by file name -/

def contents (file : Text) : Text := (fragments.lookup file).getD []

def names : List Text := fragments.map Prod.fst

theorem nodup_names : names.Nodup := by decide

/-- A packaged file is listed with its contents. -/
theorem mem_fragments {file : Text} (h : file ∈ names) : (file, contents file) ∈ fragments := by
  obtain ⟨⟨_, t⟩, hmem, rfl⟩ := List.mem_map.1 h
  rwa [contents, lookup_of_mem nodup_names hmem, Option.getD_some]

theorem hasForm_contents {file : Text} (h : file ∈ names) {ms : List Marker}
    (hms : placesOf file = ms) : HasForm (contents file) ms :=
  hms ▸ hasForm_of_mem _ (mem_fragments h)

/-- A name that stands for a file of the directory itself, and can be asked for. -/
def isPlainName (name : Text) : Bool :=
  decide (Path.ofText name = ⟨[], [name]⟩) && name != ".." && !Files.isTooLong name &&
    (Files.nameable ⟨[], [Store.packagedDirectory, name]⟩).toBool

theorem isPlainName_of_mem : ∀ e ∈ fragments, isPlainName e.1 = true := by decide

end Packaged

/-! ## Reading and loading -/

namespace Store

variable {name t : Text}

theorem path_packaged (h : Path.ofText name = ⟨[], [name]⟩) :
    packaged.path name = ⟨[], [packagedDirectory, name]⟩ := by
  rw [path, h]
  rfl

/-- What stands at the location of a packaged file. -/
theorem get?_packagedFiles (h : (name, t) ∈ Packaged.fragments) :
    packagedFiles.get? [packagedDirectory, name] = some (.file (Text.Utf8.encode t)) := by
  let entry (e : Text × Text) : Location × Node :=
    ([packagedDirectory, e.1], .file (Text.Utf8.encode e.2))
  have hkeys : (Packaged.fragments.map entry).map Prod.fst =
      Packaged.names.map fun n => [packagedDirectory, n] := by
    rw [Packaged.names, List.map_map, List.map_map]
    rfl
  -- the keys are the names in one directory, so they differ as the names do
  have hnodup : ((Packaged.fragments.map entry).map Prod.fst).Nodup := by
    rw [hkeys, List.Nodup, List.pairwise_map]
    exact Packaged.nodup_names.imp fun hne heq => hne (by simpa using heq)
  have hmem : entry (name, t) ∈ Packaged.fragments.map entry := List.mem_map_of_mem h
  have hne : ([packagedDirectory, name] == [packagedDirectory]) = false := by
    rw [beq_eq_false_iff_ne]
    intro he
    simpa using congrArg List.length he
  rw [Files.get?, if_neg (List.cons_ne_nil _ _), packagedFiles, List.lookup_cons, hne]
  exact lookup_of_mem hnodup hmem

/-- The bytes of a packaged file are those of its contents. -/
theorem read_packaged (h : (name, t) ∈ Packaged.fragments) :
    packagedFiles.read (packaged.path name) = .ok (Text.Utf8.encode t) := by
  have hplain := Packaged.isPlainName_of_mem _ h
  simp only [Packaged.isPlainName, Bool.and_eq_true, decide_eq_true_eq, bne_iff_ne, ne_eq,
    Bool.not_eq_true'] at hplain
  obtain ⟨⟨⟨hpath, hup⟩, hlong⟩, hnameable⟩ := hplain
  have hnameable : Files.nameable ⟨[], [packagedDirectory, name]⟩ = .ok () := by
    cases hn : Files.nameable ⟨[], [packagedDirectory, name]⟩ with
    | ok _ => rfl
    | error _ => rw [hn] at hnameable; exact Bool.noConfusion hnameable
  have hget := get?_packagedFiles h
  -- the way to the file: first the directory, then the file in it
  have hdir : packagedFiles.get? [packagedDirectory] = some .directory := rfl
  have hwalk : packagedFiles.walk [] [packagedDirectory, name] =
      .ok [packagedDirectory, name] := by
    rw [Files.walk, if_neg (by decide), if_neg (by decide), List.nil_append, hdir]
    show packagedFiles.walk [packagedDirectory] [name] = _
    rw [Files.walk, if_neg hup, hlong, List.singleton_append, hget]
    rfl
  have hlocate : packagedFiles.locate (packaged.path name) = .ok [packagedDirectory, name] := by
    rw [path_packaged hpath, Files.locate, hnameable]
    exact hwalk
  have hnode : packagedFiles.node (packaged.path name) = .ok (.file (Text.Utf8.encode t)) := by
    rw [Files.node, hlocate]
    simp only [bind, Except.bind, hget]
  rw [Files.read, hnode]
  rfl

theorem index_packaged : packaged.source.index = Index.usual := rfl

/-- A packaged fragment is loaded as it is. -/
theorem loadVerbatim_packaged (h : name ∈ Packaged.names) :
    (packaged.source.loadVerbatim name).result = .ok ⟨Packaged.contents name, name⟩ := by
  have hread : packaged.files.read (packaged.path name) =
      .ok (Text.Utf8.encode (Packaged.contents name)) := read_packaged (Packaged.mem_fragments h)
  show (packaged.loadVerbatim name).result = _
  rw [loadVerbatim, hread]
  simp only [Text.Utf8.decode?_encode]
  rfl

/-- No packaged fragment has carriage returns to be dropped. -/
theorem load_packaged (h : name ∈ Packaged.names) :
    (packaged.source.load name).result = .ok ⟨Packaged.contents name, name⟩ := by
  have hreturns : dropReturns (Packaged.contents name) = Packaged.contents name :=
    (Packaged.hasForm_contents h rfl).dropReturns_eq
  rw [Source.load, Run.result_bind_of_ok (loadVerbatim_packaged h), Run.result_pure, hreturns]

end Store

end Tracewright
