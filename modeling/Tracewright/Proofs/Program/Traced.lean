/-
  Tracewright.Proofs.Program.Traced

  The process that is traced, from the settings to the test in a program.

    * `Attach.result_pidCheck_of_traced`
                     — the test, made from the fragment of any source.
    * `numbers_spelled`
                     — what a number in the settings comes to, however it is
                       spelled.
-/
import Tracewright.Proofs.Program.Attach
import Tracewright.Proofs.Settings.Numbers
import Tracewright.Proofs.Text.Pieces
import Tracewright.Yaml.Document

namespace Tracewright

namespace Attach

/-- The numeral of the process stands in every place of the marker. -/
theorem result_pidCheck_of_traced {source : Source Run} {m : Mode} {pid : Pid} {hook : Buffer}
    (own : Int) (hm : m.pid = some pid) (hpid : Numeral.isWritable pid.number = true)
    (hload : (source.load (source.index.pidCheck m.fullFeature.isTrue)).result = .ok hook)
    (hplace : Text.hasWord Marker.tracedPid.word hook.text = true) :
    (pidCheck source m own).result =
      .ok (hook.replaceAll Marker.tracedPid.word (Numeral.decimal pid.number)) := by
  have htell : (tellTraced pid.number).result = .ok (Numeral.decimal pid.number) := by
    rw [Outline.result_tellTraced, Run.result_decimal hpid]
  rw [pidCheck, hm]
  show (source.load (source.index.pidCheck m.fullFeature.isTrue) >>= fun b =>
    tellTraced pid.number >>= fun numeral => fillPid .tracedPid numeral b).result = _
  rw [Run.result_bind_of_ok hload, Run.result_bind_of_ok htell]
  exact Outline.result_fillPid_of_hasWord hplace _

/-- With a numeral in every place of the marker nothing is left of it. -/
theorem not_infix_replaceAll_tracedPid {n : Nat} {numeral : Text}
    (h : Numeral.IsCanonical n numeral) (t : Text) :
    ¬ Marker.tracedPid.word <:+: Text.replaceAll Marker.tracedPid.word numeral t := by
  rw [← Text.hasWord_eq_false_iff]
  exact Text.hasWord_replaceAll_of_apart Marker.tracedPid.word_ne_nil h.ne_nil
    (fun c hc => Marker.not_mem_word_of_numeral (by decide) (.inl (h.isDigit c hc))) t

end Attach

/-- For every integer that can be written, and every way to spell it.  As process setting it
    stands for the process of this number if it is positive, and for none else, with one record
    iff it is negative; the test is then the fragment of any source with the canonical numeral in
    the places of the marker, and nowhere else.  As number of packets it is taken iff it is not
    negative.  No spelling makes a difference to anything. -/
theorem Settings.numbers_spelled {n : Int} {v : Value} (hn : Numeral.isWritable n = true)
    (hv : v.Spells n) :
    (∀ s : Settings, s.pidOf = v → s.HasValidPackets → s.HasValidWords →
      ∃ m, s.mode = ⟨pidLog n, .ok m⟩ ∧
        m.pid.map (fun pid => (pid.number : Int)) = (if 0 < n then some n else none) ∧
        (0 < n → ∀ (source : Source Run) (own : Int) (hook : Buffer),
          (source.load (source.index.pidCheck m.fullFeature.isTrue)).result = .ok hook →
          Marker.tracedPid.word <:+: hook.text →
          ∃ check pieces numeral, (Attach.pidCheck source m own).result = .ok check ∧
            Numeral.IsCanonical n.toNat numeral ∧
            hook.text = Marker.tracedPid.word.intercalate pieces ∧
            (∀ p ∈ pieces, ¬ Marker.tracedPid.word <:+: p) ∧
            check.text = numeral.intercalate pieces ∧
            ¬ Marker.tracedPid.word <:+: check.text)) ∧
    (∀ s : Settings, s.packetsOf = v → s.HasValidPid → s.HasValidWords →
      (0 ≤ n → ∃ m, s.mode.result = .ok m ∧ (m.packets : Int) = n) ∧
      (n < 0 → s.mode.result = .error (.config (.packetsNegative n)))) ∧
    ∀ s s' : Settings, s.Alike s' → s.mode = s'.mode := by
  refine ⟨?_, ?_, fun s s' => Alike.mode_eq⟩
  · rintro s rfl hpackets hwords
    obtain ⟨m, hmode, hpid⟩ := mode_of_spelled_pid (fun _ => hn) hv hpackets hwords
    refine ⟨m, hmode, hpid, fun hpositive source own hook hload hplace => ?_⟩
    rw [if_pos hpositive, Option.map_eq_some_iff] at hpid
    obtain ⟨pid, hm, rfl⟩ := hpid
    have hcanonical := Numeral.isCanonical_iff.2 (rfl : Numeral.decimal pid.number = _)
    have hword := Marker.tracedPid.word_ne_nil
    refine ⟨_, Text.split Marker.tracedPid.word hook.text, Numeral.decimal pid.number,
      Attach.result_pidCheck_of_traced own hm hn hload ((Text.hasWord_iff _ _).2 hplace),
      hcanonical, (Text.intercalate_split hword hook.text).symm, fun p hp => ?_, rfl,
      Attach.not_infix_replaceAll_tracedPid hcanonical hook.text⟩
    rw [← Text.hasWord_eq_false_iff]
    exact Text.not_hasWord_of_mem_split hword hp
  · rintro s rfl hpid hwords
    exact result_mode_of_spelled_packets (fun _ => hn) hv hpid hwords

/-- Settings with one value that is not the usual one. -/
def Settings.withOption (key : Text) (v : Scalar) : Settings :=
  (assign key (.scalar v) (usual Yaml.platform.depths)).2

/-- Digits of two scripts, noughts before them, a sign and blanks: a process, and the test for
    it made from the packaged fragment; and a number of packets. -/
theorem Settings.numbers_spelled_two_scripts :
    let v : Scalar := .text " +0_0\uff14\u0662\n"
    (Value.scalar v).Spells 42 ∧
      (∃ m check, (withOption "generator.pid" v).mode = ⟨[], .ok m⟩ ∧
        m.pid.map (fun pid => (pid.number : Int)) = some 42 ∧
        (Attach.pidCheck Store.packaged.source m 4711).result = .ok check ∧
        ¬ Marker.tracedPid.word <:+: check.text) ∧
      ∃ m, (withOption "generator.string_packets" v).mode.result = .ok m ∧
        (m.packets : Int) = 42 := by
  intro v
  have hv : (Value.scalar v).Spells 42 :=
    .inr ⟨_, rfl, Numeral.read?_eq_some_iff.1 (by decide +kernel)⟩
  obtain ⟨hpid, hpackets, -⟩ := numbers_spelled (Numeral.isWritable_of_lt (by decide)) hv
  obtain ⟨m, hmode, hm, hcheck⟩ := hpid (withOption "generator.pid" v) rfl ⟨2, rfl⟩
    ⟨⟨.fixed, rfl⟩, _, rfl⟩
  obtain ⟨m', hm', hcount⟩ := (hpackets (withOption "generator.string_packets" v) rfl (.inl rfl)
    ⟨⟨.fixed, rfl⟩, _, rfl⟩).1 (by decide)
  have hnames : ∀ family, Index.usual.pidCheck family ∈ Packaged.names := by decide
  have hplace : ∀ family, Text.hasWord Marker.tracedPid.word
      (Packaged.contents (Index.usual.pidCheck family)) = true := by decide +kernel
  obtain ⟨check, -, -, hresult, -, -, -, -, hleft⟩ := hcheck (by decide) Store.packaged.source 4711
    _ (Store.load_packaged (hnames _)) ((Text.hasWord_iff _ _).1 (hplace _))
  exact ⟨hv, ⟨m, check, hmode, hm, hresult, hleft⟩, m', hm', hcount⟩

end Tracewright
