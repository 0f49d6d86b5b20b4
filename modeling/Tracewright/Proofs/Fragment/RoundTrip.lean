/-
  Tracewright.Proofs.Fragment.RoundTrip

  Loading a fragment and encoding its text gives back the bytes of its file,
  or these without carriage returns; and what is no text cannot be loaded.

    * `Store.result_loadVerbatim_of_text`, `Store.result_loadVerbatim_of_malformed`,
      `Store.result_loadVerbatim_of_fault`
                           — loading, by what is at the path.
    * `Store.result_load`  — without carriage returns, it ends alike.
    * `Store.load_round_trip`
                           — bytes and text, and every other case.
    * `Store.load_nul`     — a name that no file has.
-/
import Tracewright.Proofs.Files.Directories
import Tracewright.Proofs.Fragment.Check
import Tracewright.Proofs.Text.Decoding

namespace Tracewright

open Text.Utf8 (IsWellFormed encode decode? decode?_eq_some_iff exists_decode?_iff encode_filter)

/-! ## Reading -/

namespace Files

variable {f : Files} {p : Path}

theorem read_ne_unnameable (hp : ¬ HasNul p) : f.read p ≠ .error .unnameable := by
  have hnode : f.node p ≠ .error .unnameable := by
    refine bind_ne_unnameable (locate_ne_unnameable hp) fun at_ => ?_
    split <;> exact nofun
  refine bind_ne_unnameable hnode fun n => ?_
  cases n <;> exact nofun

/-- A path with a NUL is refused as such, whatever is there. -/
theorem read_of_hasNul (hp : HasNul p) : f.read p = .error .unnameable := by
  have hname : nameable p = .error .unnameable := if_pos hp
  rw [read, node, locate, hname]
  rfl

end Files

namespace Store

variable {s : Store} {name t : Text} {bytes : List UInt8} {fault : OsFault}

/-! ## Loading, by what is at the path -/

theorem result_loadVerbatim_of_text (hread : s.files.read (s.path name) = .ok bytes)
    (htext : decode? bytes = some t) : (s.loadVerbatim name).result = .ok ⟨t, name⟩ := by
  rw [loadVerbatim, hread]
  simp only [htext]
  rfl

theorem result_loadVerbatim_of_malformed (hread : s.files.read (s.path name) = .ok bytes)
    (htext : decode? bytes = none) :
    (s.loadVerbatim name).result =
      .error (.fragmentUnreadable (s.path name).write (some .notUtf8)) := by
  rw [loadVerbatim, hread]
  simp only [htext]
  rfl

theorem result_loadVerbatim_of_fault (hread : s.files.read (s.path name) = .error fault)
    (hfault : fault ≠ .unnameable) :
    (s.loadVerbatim name).result =
      .error (.fragmentUnreadable (s.path name).write (some (.os fault))) := by
  rw [loadVerbatim, hread]
  cases fault with
  | unnameable => exact absurd rfl hfault
  | _ => rfl

theorem result_loadVerbatim_of_hasNul (hnul : Files.HasNul (s.path name)) :
    (s.loadVerbatim name).result = .error (.value .unnameable) := by
  rw [loadVerbatim, Files.read_of_hasNul hnul]
  rfl

/-- Without carriage returns, loading ends as it does with them. -/
theorem result_load (s : Store) (name : Text) :
    (s.load name).result =
      (s.loadVerbatim name).result.map fun b => { b with text := dropReturns b.text } := by
  rw [load, Run.result_bind]
  cases (s.loadVerbatim name).result <;> rfl

theorem result_load_of_error {e : Failure} (h : (s.loadVerbatim name).result = .error e) :
    (s.load name).result = .error e := by
  rw [result_load, h]
  rfl

theorem exists_load_iff :
    (∃ b, (s.load name).result = .ok b) ↔ ∃ b, (s.loadVerbatim name).result = .ok b := by
  rw [result_load]
  cases (s.loadVerbatim name).result with
  | ok b => exact ⟨fun _ => ⟨b, rfl⟩, fun _ => ⟨_, rfl⟩⟩
  | error e => exact ⟨nofun, nofun⟩

/-- The bytes of a text without carriage returns are its bytes without theirs. -/
theorem encode_dropReturns (t : Text) :
    encode (dropReturns t) = (encode t).filter (· != 0x0d) :=
  encode_filter (by decide) (by decide) t

theorem exists_loadVerbatim_iff (hread : s.files.read (s.path name) = .ok bytes) :
    (∃ b, (s.loadVerbatim name).result = .ok b) ↔ IsWellFormed bytes := by
  rw [← exists_decode?_iff]
  cases htext : decode? bytes with
  | some t => exact ⟨fun _ => ⟨t, rfl⟩, fun _ => ⟨_, result_loadVerbatim_of_text hread htext⟩⟩
  | none =>
    rw [result_loadVerbatim_of_malformed hread htext]
    exact ⟨nofun, nofun⟩

theorem encode_of_loadVerbatim {b : Buffer} (hread : s.files.read (s.path name) = .ok bytes)
    (h : (s.loadVerbatim name).result = .ok b) : encode b.text = bytes := by
  cases htext : decode? bytes with
  | some t =>
    rw [result_loadVerbatim_of_text hread htext] at h
    cases h
    exact decode?_eq_some_iff.1 htext
  | none =>
    rw [result_loadVerbatim_of_malformed hread htext] at h
    cases h

theorem encode_of_load {b : Buffer} (hread : s.files.read (s.path name) = .ok bytes)
    (h : (s.load name).result = .ok b) : encode b.text = bytes.filter (· != 0x0d) := by
  rw [result_load] at h
  cases hverbatim : (s.loadVerbatim name).result with
  | ok b' =>
    rw [hverbatim] at h
    cases h
    rw [encode_dropReturns, encode_of_loadVerbatim hread hverbatim]
  | error e =>
    rw [hverbatim] at h
    cases h

/-! ## Bytes and text -/

/-- For every directory, every name and whatever bytes its file holds: the fragment can be loaded,
    in either way, iff the bytes are well-formed; the bytes of its text are then those of the file,
    or these without the carriage returns.  If they are not well-formed, or there is no file, both
    ways fail with the path of the file.  Only a name with a NUL is refused in another way. -/
theorem load_round_trip (s : Store) (name : Text) :
    (∀ bytes, s.files.read (s.path name) = .ok bytes →
      ((∃ b, (s.loadVerbatim name).result = .ok b) ↔ IsWellFormed bytes) ∧
      ((∃ b, (s.load name).result = .ok b) ↔ IsWellFormed bytes) ∧
      (∀ b, (s.loadVerbatim name).result = .ok b → encode b.text = bytes) ∧
      (∀ b, (s.load name).result = .ok b → encode b.text = bytes.filter (· != 0x0d)) ∧
      (¬ IsWellFormed bytes →
        (s.loadVerbatim name).result =
          .error (.fragmentUnreadable (s.path name).write (some .notUtf8)) ∧
        (s.load name).result =
          .error (.fragmentUnreadable (s.path name).write (some .notUtf8)))) ∧
    (∀ fault, s.files.read (s.path name) = .error fault → ¬ Files.HasNul (s.path name) →
      (s.loadVerbatim name).result =
        .error (.fragmentUnreadable (s.path name).write (some (.os fault))) ∧
      (s.load name).result =
        .error (.fragmentUnreadable (s.path name).write (some (.os fault)))) ∧
    (Files.HasNul (s.path name) →
      (s.loadVerbatim name).result = .error (.value .unnameable) ∧
      (s.load name).result = .error (.value .unnameable)) := by
  refine ⟨fun bytes hread => ?_, fun fault hread hnul => ?_, fun hnul => ?_⟩
  · refine ⟨exists_loadVerbatim_iff hread, exists_load_iff.trans (exists_loadVerbatim_iff hread),
      fun b => encode_of_loadVerbatim hread, fun b => encode_of_load hread, fun hbytes => ?_⟩
    have htext : decode? bytes = none := by
      cases htext : decode? bytes with
      | none => rfl
      | some t => exact absurd (exists_decode?_iff.1 ⟨t, htext⟩) hbytes
    have hverbatim := result_loadVerbatim_of_malformed hread htext
    exact ⟨hverbatim, result_load_of_error hverbatim⟩
  · have hfault : fault ≠ .unnameable := by
      rintro rfl
      exact Files.read_ne_unnameable hnul hread
    have hverbatim := result_loadVerbatim_of_fault hread hfault
    exact ⟨hverbatim, result_load_of_error hverbatim⟩
  · have hverbatim := result_loadVerbatim_of_hasNul hnul
    exact ⟨hverbatim, result_load_of_error hverbatim⟩

/-- A directory with one fragment. -/
def singleFragment (bytes : List UInt8) : Store where
  directory := ⟨[], ["tpl"]⟩
  files := { nodes := [(["tpl"], .directory), (["tpl", "x.c"], .file bytes)], home := [] }

/-- A byte order mark, two ways to end a line, a lone carriage return, and no last line end. -/
theorem load_round_trip_marked :
    let bytes : List UInt8 := [0xef, 0xbb, 0xbf, 0x61, 0x0d, 0x0a, 0x0d, 0x0a, 0x0d, 0xc3, 0xa9]
    let s := singleFragment bytes
    s.files.read (s.path "x.c") = .ok bytes ∧
      ∃ b b', (s.loadVerbatim "x.c").result = .ok b ∧ encode b.text = bytes ∧
        (s.load "x.c").result = .ok b' ∧
        encode b'.text = [0xef, 0xbb, 0xbf, 0x61, 0x0a, 0x0a, 0xc3, 0xa9] := by
  intro bytes s
  have hread : s.files.read (s.path "x.c") = .ok bytes := eq_ok_of_toOption (by decide +kernel)
  obtain ⟨hverbatim, hload, hbytes, hfewer, -⟩ := (load_round_trip s "x.c").1 bytes hread
  have hwell : IsWellFormed bytes := exists_decode?_iff.1 ⟨"\ufeffa\r\n\r\n\ré", by decide +kernel⟩
  obtain ⟨b, hb⟩ := hverbatim.2 hwell
  obtain ⟨b', hb'⟩ := hload.2 hwell
  exact ⟨hread, b, b', hb, hbytes b hb, hb', hfewer b' hb'⟩

/-- A name with a NUL: the check says that its file is missing, but loading it does not fail for a
    fragment that cannot be read. -/
theorem load_nul :
    let s : Store := { packaged with index := { Index.usual with head := ['a', '\x00'] } }
    s.missing.toOption = some [['a', '\x00']] ∧
      ((s.loadVerbatim ['a', '\x00']).result matches .error (.value .unnameable)) ∧
      ((s.load ['a', '\x00']).result matches .error (.value .unnameable)) := by
  decide +kernel

end Store

end Tracewright
