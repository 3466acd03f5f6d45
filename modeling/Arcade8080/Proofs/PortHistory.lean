import Mathlib.Algebra.Group.Nat.Even
import Mathlib.Data.List.Induction
import Arcade8080.Board.Ports

/-!
The ports as their history tells them. Whatever was written before, the sound latches hold the
latest byte that came to each, and the shift register gives the two latest bytes as one number,
moved up by as many bits as the latest offset says. Reading changes nothing, and neither does
a byte that is written to a port without an output.
-/

namespace Arcade8080.Board.Ports

/-- What can be asked of ports by themselves. -/
inductive Call where
  | read (port : Byte)
  | write (port value : Byte)
  deriving DecidableEq

/-- The ports that a call leaves. -/
def after (ports : Ports) : Call → Ports
  | .read _ => ports
  | .write port value => ports.write port value

def afterAll (ports : Ports) (calls : List Call) : Ports := calls.foldl after ports

namespace Call

/-- The byte that a call writes to a port. -/
def sent? (port : Byte) : Call → Option Byte
  | .read _ => none
  | .write target value => if target = port then some value else none

/-- Whether a call writes to one of the ports that have an output. -/
def isKept : Call → Bool
  | .read _ => false
  | .write port _ => [2, 3, 4, 5].contains port

end Call

/-- The byte that was written to a port latest, or the one so many before it. There is 0 where
nothing was written. -/
def recent (port : Byte) (back : Nat) (calls : List Call) : Byte :=
  (calls.filterMap (Call.sent? port)).reverse[back]?.getD 0

variable {port target value : Byte} {calls : List Call} {call : Call}

theorem afterAll_concat (ports : Ports) (calls : List Call) (call : Call) :
    ports.afterAll (calls ++ [call]) = (ports.afterAll calls).after call := by
  simp [afterAll]

theorem recent_concat_of_eq_none (h : call.sent? port = none) (back : Nat) :
    recent port back (calls ++ [call]) = recent port back calls := by
  simp [recent, h]

@[simp] theorem recent_concat_read (back : Nat) :
    recent port back (calls ++ [.read target]) = recent port back calls :=
  recent_concat_of_eq_none rfl back

theorem recent_concat_of_ne (h : target ≠ port) (back : Nat) :
    recent port back (calls ++ [.write target value]) = recent port back calls := by
  have hnone : (Call.write target value).sent? port = none := if_neg h
  exact recent_concat_of_eq_none hnone back

@[simp] theorem recent_concat_zero :
    recent port 0 (calls ++ [.write port value]) = value := by
  simp [recent, Call.sent?]

@[simp] theorem recent_concat_succ (back : Nat) :
    recent port (back + 1) (calls ++ [.write port value]) = recent port back calls := by
  simp [recent, Call.sent?]

theorem after_of_not_isKept (h : call.isKept = false) (ports : Ports) :
    ports.after call = ports := by
  cases call with
  | read port => rfl
  | write port value =>
    rw [after, write]
    split
    case h_1 hport | h_2 hport | h_3 hport | h_4 hport =>
      simp [Call.isKept, ← BitVec.toNat_inj, hport] at h
    case h_5 => rfl

/-- A history can do without the calls that nothing is kept of. -/
theorem afterAll_filter_isKept (ports : Ports) (calls : List Call) :
    ports.afterAll (calls.filter Call.isKept) = ports.afterAll calls := by
  induction calls generalizing ports with
  | nil => rfl
  | cons call rest ih =>
    cases h : call.isKept with
    | false =>
      have hsame : ports.afterAll (call :: rest) = ports.afterAll rest :=
        congrArg (afterAll · rest) (after_of_not_isKept h ports)
      rw [List.filter_cons_of_neg (by simp [h]), ih, hsame]
    | true =>
      rw [List.filter_cons_of_pos h]
      exact ih (ports.after call)

/-- The ports as a history of calls has left them, with latches that never change. -/
def settled (in1 in2 : Byte) (calls : List Call) : Ports where
  in1 := in1 ||| 0x08
  in2 := in2
  out3 := recent 3 0 calls
  out5 := recent 5 0 calls
  shiftRegister := Word.ofBytes (recent 4 0 calls) (recent 4 1 calls)
  shiftOffset := .ofNat (recent 2 0 calls).toNat

/-- What a call writes to one port becomes the latest there, and nowhere else. -/
theorem after_settled (in1 in2 : Byte) (calls : List Call) (call : Call) :
    (settled in1 in2 calls).after call = settled in1 in2 (calls ++ [call]) := by
  cases call with
  | read port => simp [after, settled]
  | write port value =>
    by_cases hkept : port ∈ [2, 3, 4, 5]
    · simp only [List.mem_cons, List.not_mem_nil, or_false] at hkept
      rcases hkept with rfl | rfl | rfl | rfl <;>
        simp [after, write, settled, recent_concat_of_ne]
    · have hignored : (Call.write port value).isKept = false := by simpa [Call.isKept] using hkept
      rw [after_of_not_isKept hignored]
      simp only [List.mem_cons, List.not_mem_nil, or_false, not_or] at hkept
      obtain ⟨h2, h3, h4, h5⟩ := hkept
      simp only [settled, recent_concat_of_ne h2, recent_concat_of_ne h3, recent_concat_of_ne h4,
        recent_concat_of_ne h5]

/-- The induction is on the calls from the latest one back, which each changes what is latest. -/
theorem afterAll_ofLatches (in1 in2 : Byte) (calls : List Call) :
    (ofLatches in1 in2).afterAll calls = settled in1 in2 calls := by
  induction calls using List.reverseRecOn with
  | nil => rfl
  | append_singleton calls call ih => rw [afterAll_concat, ih, after_settled]

/-- Moving the register down by less than a byte is moving it up and dropping a byte. -/
theorem toNat_read_three (ports : Ports) :
    (ports.read 3).toNat =
      ports.shiftRegister.toNat * 2 ^ ports.shiftOffset.val / 256 % 256 := by
  have hoffset : ports.shiftOffset.val ≤ 8 := by omega
  have hweight : 256 = 2 ^ (8 - ports.shiftOffset.val) * 2 ^ ports.shiftOffset.val := by
    rw [← Nat.pow_add, Nat.sub_add_cancel hoffset]
  have hread : ports.read 3 =
      (ports.shiftRegister >>> (8 - ports.shiftOffset.val)).setWidth 8 := rfl
  rw [hread, BitVec.toNat_setWidth, BitVec.toNat_ushiftRight, Nat.shiftRight_eq_div_pow]
  calc ports.shiftRegister.toNat / 2 ^ (8 - ports.shiftOffset.val) % 256
      = ports.shiftRegister.toNat * 2 ^ ports.shiftOffset.val /
          (2 ^ (8 - ports.shiftOffset.val) * 2 ^ ports.shiftOffset.val) % 256 := by
        rw [Nat.mul_div_mul_right _ _ (Nat.two_pow_pos _)]
    _ = ports.shiftRegister.toNat * 2 ^ ports.shiftOffset.val / 256 % 256 := by rw [hweight]

theorem toNat_read_three_settled (in1 in2 : Byte) (calls : List Call) :
    ((settled in1 in2 calls).read 3).toNat =
      (256 * (recent 4 0 calls).toNat + (recent 4 1 calls).toNat) *
        2 ^ ((recent 2 0 calls).toNat % 8) / 256 % 256 := by
  have hregister : (settled in1 in2 calls).shiftRegister.toNat =
      256 * (recent 4 0 calls).toNat + (recent 4 1 calls).toNat := by
    rw [settled, Word.toNat_ofBytes, Nat.mul_comm]
  have hoffset : (settled in1 in2 calls).shiftOffset.val = (recent 2 0 calls).toNat % 8 := rfl
  rw [toNat_read_three, hregister, hoffset]

theorem getLsbD_read_one_settled (in1 in2 : Byte) (calls : List Call) {index : Nat}
    (h : index < 8) :
    ((settled in1 in2 calls).read 1).getLsbD index = (index == 3 || in1.getLsbD index) := by
  have hbit : ∀ index < 8, (0x08 : Byte).getLsbD index = (index == 3) := by decide
  have hread : (settled in1 in2 calls).read 1 = in1 ||| 0x08 := rfl
  rw [hread, BitVec.getLsbD_or, hbit index h, Bool.or_comm]

theorem read_eq_zero (ports : Ports) (h : port ∉ [1, 2, 3]) : ports.read port = 0 := by
  rw [read]
  split
  case h_1 hport | h_2 hport | h_3 hport => simp [← BitVec.toNat_inj, hport] at h
  case h_4 => rfl

/-- After any calls, port 3 shows the two latest bytes that were written to port 4 as one number,
the later one on top, moved up by the latest offset and cut to the byte above the lowest; ports 1
and 2 show their latches, bit 3 of the first one set, and no other port shows anything. The
sound latches hold the latest bytes of ports 3 and 5. No read and no write to any port but these
four changes a thing, now or in hindsight. -/
theorem ports_follow_their_history (in1 in2 : Byte) (calls : List Call) :
    let ports := (ofLatches in1 in2).afterAll calls
    let top := (recent 4 0 calls).toNat
    let bottom := (recent 4 1 calls).toNat
    let offset := (recent 2 0 calls).toNat % 8
    (ports.read 3).toNat = (256 * top + bottom) * 2 ^ offset / 256 % 256 ∧
    (∀ index < 8, (ports.read 1).getLsbD index = (index == 3 || in1.getLsbD index)) ∧
    ports.read 2 = in2 ∧
    (∀ port ∉ [1, 2, 3], ports.read port = 0) ∧
    ports.out3 = recent 3 0 calls ∧ ports.out5 = recent 5 0 calls ∧
    (∀ call : Call, call.isKept = false → ports.after call = ports) ∧
    (ofLatches in1 in2).afterAll (calls.filter Call.isKept) = ports := by
  intro ports top bottom offset
  have hports : ports = settled in1 in2 calls := afterAll_ofLatches in1 in2 calls
  refine ⟨?_, ?_, ?_, ?_, ?_, ?_, ?_, ?_⟩
  · rw [hports]
    exact toNat_read_three_settled in1 in2 calls
  · intro index hindex
    rw [hports]
    exact getLsbD_read_one_settled in1 in2 calls hindex
  · rw [hports]
    rfl
  · exact fun port hport => read_eq_zero ports hport
  · rw [hports]
    rfl
  · rw [hports]
    rfl
  · exact fun call hcall => after_of_not_isKept hcall ports
  · exact afterAll_filter_isKept _ calls

/-- Two bytes and an offset, with a read and a kick of the watchdog in between. -/
def moving : List Call :=
  [.write 4 0xAA, .read 3, .write 4 0xFF, .write 6 0x01, .write 2 0x0A]

/-- FFAA moved up by two bits shows FE. -/
theorem ports_follow_their_history_of_moving :
    (((ofLatches 0x01 0x83).afterAll moving).read 3).toNat = 0xFE ∧
    (((ofLatches 0x01 0x83).afterAll moving).read 1).getLsbD 3 = true ∧
    ((ofLatches 0x01 0x83).afterAll moving).read 6 = 0 ∧
    ((ofLatches 0x01 0x83).afterAll moving).after (.write 6 0x02) =
      (ofLatches 0x01 0x83).afterAll [.write 4 0xAA, .write 4 0xFF, .write 2 0x0A] := by
  obtain ⟨hshifted, hlatch, _, hnothing, _, _, hignored, hfiltered⟩ :=
    ports_follow_their_history 0x01 0x83 moving
  refine ⟨hshifted, hlatch 3 (by decide), hnothing 6 (by decide), ?_⟩
  rw [hignored (.write 6 0x02) rfl, ← hfiltered]
  rfl

end Arcade8080.Board.Ports
