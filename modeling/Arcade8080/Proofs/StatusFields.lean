import Mathlib.Data.Nat.Digits.Lemmas
import Arcade8080.Cpu
import Arcade8080.StatusLine

/-!
What can be read off a status line. A line is made of fields, each a name and a number in as
many upper-case hexadecimal digits as the field is wide. Widths do not depend on the numbers,
so that lines of the same fields differ wherever one of their numbers does.
-/

namespace Arcade8080

namespace Text.Hex

/-- The digits, each in the place of its value. -/
def alphabet : List Char := "0123456789ABCDEF".toList

/-- The number that digits write: each weighs by its place, counted from the last. -/
def placeValue (text : List Char) : Nat :=
  Nat.ofDigits 16 (text.reverse.map fun c => alphabet.idxOf c)

/-- Digits of a given width write a number. -/
structure Writes (width value : Nat) (text : List Char) : Prop where
  length : text.length = width
  isDigit : ∀ c ∈ text, c ∈ alphabet
  value : placeValue text = value

theorem digit_mem_alphabet {value : Nat} (h : value < 16) :
    digit value ∈ alphabet ∧ alphabet.idxOf (digit value) = value := by
  have table : ∀ value < 16,
      digit value ∈ alphabet ∧ alphabet.idxOf (digit value) = value := by decide
  exact table value h

/-- The induction is on the width, which takes the last digit off. -/
theorem writes_digits {width value : Nat} (h : value < 16 ^ width) :
    Writes width value (digits width value) := by
  induction width generalizing value with
  | zero =>
    obtain rfl : value = 0 := by simpa using h
    exact ⟨rfl, by simp [digits], rfl⟩
  | succ width ih =>
    have hhigh : value / 16 < 16 ^ width := by
      rw [pow_succ] at h
      omega
    obtain ⟨hmem, hvalue⟩ := digit_mem_alphabet (Nat.mod_lt value (by decide))
    constructor
    case length => exact length_digits (width + 1) value
    case isDigit =>
      rw [digits]
      exact List.forall_mem_append.mpr ⟨(ih hhigh).isDigit, by simpa using hmem⟩
    case value =>
      have hrest : Nat.ofDigits 16
          ((digits width (value / 16)).reverse.map fun c => alphabet.idxOf c) = value / 16 :=
        (ih hhigh).value
      rw [placeValue, digits, List.reverse_append, List.reverse_singleton, List.map_append,
        List.map_singleton, List.singleton_append, Nat.ofDigits_cons, hrest, hvalue]
      omega

theorem toList_fixed (width value : Nat) : (fixed width value).toList = digits width value :=
  String.toList_ofList

end Text.Hex

open Text

/-- A number on a status line. -/
structure StatusField where
  name : String
  width : Nat
  value : Nat
  deriving DecidableEq

namespace StatusField

/-- A line shows fields in their order, with an equals sign behind each name and a blank between
one field and the next. -/
inductive Shown : List StatusField → List Char → Prop
  | last {field : StatusField} {text : List Char}
    (h : Hex.Writes field.width field.value text) :
    Shown [field] (field.name.toList ++ '=' :: text)
  | more {field : StatusField} {text line : List Char} {rest : List StatusField}
    (h : Hex.Writes field.width field.value text) (hrest : Shown rest line) :
    Shown (field :: rest) (field.name.toList ++ '=' :: (text ++ ' ' :: line))

/-- What does not depend on the number in a field. -/
def layout (field : StatusField) : String × Nat := (field.name, field.width)

/-- How many places a field takes, with the equals sign and one blank or the end of the line. -/
def extent : String × Nat → Nat
  | (name, width) => name.length + width + 2

variable {fields other : List StatusField} {line : List Char}

theorem Shown.length (h : Shown fields line) :
    line.length + 1 = ((fields.map layout).map extent).sum := by
  induction h with
  | last h =>
    simp only [List.length_append, List.length_cons, String.length_toList, h.length,
      List.map_singleton, List.sum_singleton, layout, extent]
    omega
  | more h _ ih =>
    simp only [List.length_append, List.length_cons, String.length_toList, h.length,
      List.map_cons, List.sum_cons, ← ih, layout, extent]
    omega

/-- Fields of one layout that begin the same line hold the same number, as their digits end in
the same place. -/
theorem eq_of_line_eq {first second : StatusField} {text digits rest tail : List Char}
    (hfirst : Hex.Writes first.width first.value text)
    (hsecond : Hex.Writes second.width second.value digits)
    (hlayout : first.layout = second.layout)
    (hline : first.name.toList ++ '=' :: (text ++ rest) =
      second.name.toList ++ '=' :: (digits ++ tail)) :
    first = second ∧ rest = tail := by
  obtain ⟨name, width, value⟩ := first
  obtain ⟨name', width', value'⟩ := second
  obtain ⟨rfl, rfl⟩ := Prod.mk.inj hlayout
  have hdigits : text ++ rest = digits ++ tail :=
    (List.cons.inj (List.append_cancel_left hline)).2
  have hlength : text.length = digits.length := hfirst.length.trans hsecond.length.symm
  obtain ⟨rfl, rfl⟩ := List.append_inj hdigits hlength
  obtain rfl : value = value' := hfirst.value.symm.trans hsecond.value
  exact ⟨rfl, rfl⟩

theorem Shown.ne_nil (h : Shown fields line) : fields ≠ [] := by
  cases h <;> exact List.cons_ne_nil _ _

/-- Fields of the same layout that the same line shows are the same. The induction is on the
first list of them. -/
theorem Shown.unique (h : Shown fields line) (hother : Shown other line)
    (hlayout : fields.map layout = other.map layout) : fields = other := by
  generalize hline : line = shown at hother
  induction h generalizing other shown with
  | @last field text h =>
    cases hother with
    | @last second digits hsecond =>
      obtain ⟨hfield, _⟩ := List.cons.inj hlayout
      rw [← List.append_nil text, ← List.append_nil digits] at hline
      rw [(eq_of_line_eq h hsecond hfield hline).1]
    | more _ hrest =>
      exact absurd (List.map_eq_nil_iff.mp (List.cons.inj hlayout).2.symm) hrest.ne_nil
  | more h hrest ih =>
    cases hother with
    | last => exact absurd (List.map_eq_nil_iff.mp (List.cons.inj hlayout).2) hrest.ne_nil
    | more hsecond htail =>
      obtain ⟨hfield, hfields⟩ := List.cons.inj hlayout
      obtain ⟨rfl, hlines⟩ := eq_of_line_eq h hsecond hfield hline
      rw [ih hfields _ (List.cons.inj hlines).2 htail]

/-- A line for some fields. -/
def written : List StatusField → List Char
  | [] => []
  | [field] => field.name.toList ++ '=' :: Hex.digits field.width field.value
  | field :: rest =>
    field.name.toList ++ '=' :: (Hex.digits field.width field.value ++ ' ' :: written rest)

theorem shown_written (hne : fields ≠ []) (h : ∀ field ∈ fields, field.value < 16 ^ field.width) :
    Shown fields (written fields) := by
  induction fields with
  | nil => exact absurd rfl hne
  | cons field rest ih =>
    obtain ⟨hfield, hrest⟩ := List.forall_mem_cons.mp h
    cases rest with
    | nil => exact .last (Hex.writes_digits hfield)
    | cons next rest => exact .more (Hex.writes_digits hfield) (ih (List.cons_ne_nil _ _) hrest)

theorem written_inj (hne : fields ≠ []) (h : ∀ field ∈ fields, field.value < 16 ^ field.width)
    (hother : ∀ field ∈ other, field.value < 16 ^ field.width)
    (hlayout : fields.map layout = other.map layout) :
    written fields = written other ↔ fields = other := by
  constructor
  · intro hline
    have hshown := shown_written hne h
    rw [hline] at hshown
    have hotherNe : other ≠ [] := by
      rintro rfl
      exact hne (List.map_eq_nil_iff.mp hlayout)
    exact hshown.unique (shown_written hotherNe hother) hlayout
  · exact congrArg written

end StatusField

namespace Core

/-- The registers, the stack pointer and the program counter as fields of a line. -/
def statusFields (core : Core) : List StatusField :=
  [⟨"A", 2, core.registers.a.toNat⟩, ⟨"B", 2, core.registers.b.toNat⟩,
    ⟨"C", 2, core.registers.c.toNat⟩, ⟨"D", 2, core.registers.d.toNat⟩,
    ⟨"E", 2, core.registers.e.toNat⟩, ⟨"H", 2, core.registers.h.toNat⟩,
    ⟨"L", 2, core.registers.l.toNat⟩, ⟨"SP", 4, core.sp.toNat⟩, ⟨"PC", 4, core.pc.toNat⟩]

theorem toList_statusLine (core : Core) :
    core.statusLine.toList = StatusField.written core.statusFields := by
  unfold statusLine Registers.statusLine
  simp [Hex.toList_fixed, StatusField.written, statusFields]

theorem statusFields_fit (core : Core) :
    ∀ field ∈ core.statusFields, field.value < 16 ^ field.width := by
  have hbyte (value : Byte) : value.toNat < 256 := value.isLt
  have hword (value : Word) : value.toNat < 65536 := value.isLt
  simp [statusFields, hbyte, hword]

/-- The names and widths of the fields. -/
def statusLayout : List (String × Nat) :=
  [("A", 2), ("B", 2), ("C", 2), ("D", 2), ("E", 2), ("H", 2), ("L", 2), ("SP", 4), ("PC", 4)]

theorem layout_statusFields (core : Core) :
    core.statusFields.map StatusField.layout = statusLayout := rfl

theorem sum_extent : (statusLayout.map StatusField.extent).sum = 51 := by decide

/-- There is nothing more to the fields than the registers and the two pointers. -/
theorem statusFields_inj {first second : Core} :
    first.statusFields = second.statusFields ↔
      first.registers = second.registers ∧ first.sp = second.sp ∧ first.pc = second.pc := by
  obtain ⟨⟨a, b, c, d, e, h, l⟩, _, pc, sp, _⟩ := first
  obtain ⟨⟨a', b', c', d', e', h', l'⟩, _, pc', sp', _⟩ := second
  simp only [statusFields, List.cons.injEq, StatusField.mk.injEq, BitVec.toNat_inj, true_and,
    and_true, Registers.mk.injEq, and_assoc]

theorem shown_statusLine (core : Core) :
    StatusField.Shown core.statusFields core.statusLine.toList := by
  rw [toList_statusLine]
  exact StatusField.shown_written (List.cons_ne_nil _ _) core.statusFields_fit

theorem length_statusLine (core : Core) : core.statusLine.length = 50 := by
  have hlength := core.shown_statusLine.length
  rw [layout_statusFields, sum_extent, String.length_toList] at hlength
  omega

theorem statusLine_inj (first second : Core) : first.statusLine = second.statusLine ↔
    first.registers = second.registers ∧ first.sp = second.sp ∧ first.pc = second.pc := by
  rw [← String.toList_inj, toList_statusLine, toList_statusLine]
  exact (StatusField.written_inj (List.cons_ne_nil _ _) first.statusFields_fit
    second.statusFields_fit rfl).trans statusFields_inj

end Core

namespace Flags

/-- The flags as fields of a line. -/
def statusFields (flags : Flags) : List StatusField :=
  [⟨"Z", 1, flags.z.toNat⟩, ⟨"S", 1, flags.s.toNat⟩, ⟨"P", 1, flags.p.toNat⟩,
    ⟨"CY", 1, flags.cy.toNat⟩, ⟨"AC", 1, flags.ac.toNat⟩]

theorem toList_statusLine (flags : Flags) :
    flags.statusLine.toList = StatusField.written flags.statusFields := by
  have hbit (set : Bool) : (if set = true then "1" else "0") = Hex.fixed 1 set.toNat := by
    cases set <;> rfl
  unfold statusLine
  simp [hbit, Hex.toList_fixed, StatusField.written, statusFields]

theorem statusFields_fit (flags : Flags) :
    ∀ field ∈ flags.statusFields, field.value < 16 ^ field.width := by
  have hbit (set : Bool) : set.toNat < 16 := by
    cases set <;> decide
  simp [statusFields, hbit]

theorem statusFields_inj {first second : Flags} :
    first.statusFields = second.statusFields ↔ first = second := by
  obtain ⟨z, s, p, cy, ac⟩ := first
  obtain ⟨z', s', p', cy', ac'⟩ := second
  have hbit (set other : Bool) : set.toNat = other.toNat ↔ set = other := by
    cases set <;> cases other <;> decide
  simp only [statusFields, List.cons.injEq, StatusField.mk.injEq, hbit, true_and, and_true,
    mk.injEq]

theorem shown_statusLine (flags : Flags) :
    StatusField.Shown flags.statusFields flags.statusLine.toList := by
  rw [toList_statusLine]
  exact StatusField.shown_written (List.cons_ne_nil _ _) flags.statusFields_fit

theorem statusLine_inj (first second : Flags) :
    first.statusLine = second.statusLine ↔ first = second := by
  rw [← String.toList_inj, toList_statusLine, toList_statusLine]
  exact (StatusField.written_inj (List.cons_ne_nil _ _) first.statusFields_fit
    second.statusFields_fit rfl).trans statusFields_inj

end Flags

/-- A status line shows the registers, the stack pointer and the program counter and nothing
else, each as its digits at its full width, and takes 50 places whatever they hold. So it is
the same for two processors just where these are, and the line of the flags is the same just
where all five flags are. -/
theorem status_lines_are_lossless :
    (∀ cpu : Cpu, StatusField.Shown cpu.statusFields cpu.statusLine.toList ∧
      cpu.statusLine.length = 50) ∧
    (∀ first second : Cpu, first.statusLine = second.statusLine ↔
      first.registers = second.registers ∧ first.sp = second.sp ∧ first.pc = second.pc) ∧
    (∀ flags : Flags, StatusField.Shown flags.statusFields flags.statusLine.toList) ∧
    ∀ first second : Flags, first.statusLine = second.statusLine ↔ first = second := by
  refine ⟨?_, ?_, Flags.shown_statusLine, Flags.statusLine_inj⟩
  · exact fun cpu => ⟨cpu.shown_statusLine, cpu.length_statusLine⟩
  · exact fun first second => Core.statusLine_inj first.toCore second.toCore

/-- Small numbers keep their zeros. -/
example :
    ({ registers := { a := 0x12, h := 0x24 }, sp := 0x2400, pc := 0x0100 } : Core).statusLine =
      "A=12 B=00 C=00 D=00 E=00 H=24 L=00 SP=2400 PC=0100" := by decide

end Arcade8080
