import Mathlib.Data.List.Basic
import TreeInspector.Text.Utf8

/-!
# Reading back what was written

The bytes of a character lead the reader from between characters to between characters, and what it
has read on the way is that character. The first byte fixes how many follow it and bounds the next
one, so the bounds exclude the surrogates and what is written with too many bytes; a character that
is written as it should be meets them. Hence a text is read back from its bytes, whatever it starts
with.
-/

set_option autoImplicit false

namespace TreeInspector.Text.Utf8

/-! ## Single bytes -/

section

variable {b : UInt8} {n : ℕ}

/-- A byte up to 0x7F is a character. -/
theorem lead_one (hb : b.toNat = n) (hn : n ≤ 0x7F) : lead b = (none, [Char.ofNat n]) := by
  simp [lead, UInt8.le_iff_toNat_le, hb, hn]

/-- A byte from 0xC2 on leads one more byte. -/
theorem lead_two (hb : b.toNat = n + 0xC0) (hleast : 2 ≤ n) (hn : n < 0x20) :
    lead b = (some ⟨1, 0x80, 0xBF, n⟩, []) := by
  simp [lead, UInt8.le_iff_toNat_le, hb]
  omega

/-- A byte from 0xE0 on leads two more bytes, and says within which bounds the first of them lies.
-/
theorem lead_three (hb : b.toNat = n + 0xE0) (hn : n < 0x10) :
    lead b = (some ⟨2, if n = 0 then 0xA0 else 0x80, if n = 0xD then 0x9F else 0xBF, n⟩, []) := by
  simp [lead, UInt8.le_iff_toNat_le, ← UInt8.toNat_inj, hb]
  omega

/-- A byte from 0xF0 on leads three more bytes, and says within which bounds the first of them lies.
-/
theorem lead_four (hb : b.toNat = n + 0xF0) (hn : n < 5) :
    lead b = (some ⟨3, if n = 0 then 0x90 else 0x80, if n = 4 then 0x8F else 0xBF, n⟩, []) := by
  simp [lead, UInt8.le_iff_toNat_le, ← UInt8.toNat_inj, hb]
  omega

/-- A byte that continues a character adds its six bits to those read so far. -/
theorem step_tail {p : Pending} (hb : b.toNat = n + 0x80) (hleast : p.least.toNat ≤ n + 0x80)
    (hgreatest : n + 0x80 ≤ p.greatest.toNat) :
    step (some p) b =
      if p.needed ≤ 1 then (none, [Char.ofNat (p.bits * 0x40 + n)])
      else (some ⟨p.needed - 1, 0x80, 0xBF, p.bits * 0x40 + n⟩, []) := by
  simp [step, UInt8.le_iff_toNat_le, hb, hleast, hgreatest]

/-- A least byte that is raised if `q` holds. -/
theorem toNat_ite_le {q : Prop} [Decidable q] (h : q → b.toNat ≤ n + 0x80) :
    (if q then b else 0x80).toNat ≤ n + 0x80 := by
  split_ifs with hq
  · exact h hq
  · exact Nat.le_add_left _ n

/-- A greatest byte that is lowered if `q` holds. -/
theorem le_toNat_ite {q : Prop} [Decidable q] (hn : n < 0x40) (h : q → n + 0x80 ≤ b.toNat) :
    n + 0x80 ≤ (if q then b else 0xBF).toNat := by
  split_ifs with hq
  · exact h hq
  · exact Nat.add_le_add_right (Nat.le_of_lt_succ hn) 0x80

/-- A number below 256 is the number of its byte. -/
theorem toNat_ofNat (hn : n < 0x100) : (UInt8.ofNat n).toNat = n := by
  rw [UInt8.toNat_ofNat', Nat.mod_eq_of_lt hn]

end

/-! ## Characters and texts -/

/-- The first byte is taken in, and the others are decoded from there. -/
theorem decodeFrom_cons (state : State) (b : UInt8) (rest : List UInt8) :
    decodeFrom state (b :: rest) = (step state b).2 ++ decodeFrom (step state b).1 rest := by
  cases state <;> rfl

/-- A byte within its bounds adds its six bits, and the next one may be any that follows. -/
theorem decodeFrom_tail {needed bits n : ℕ} {least greatest b : UInt8} (hb : b.toNat = n + 0x80)
    (hleast : least.toNat ≤ n + 0x80) (hgreatest : n + 0x80 ≤ greatest.toNat)
    (rest : List UInt8) :
    decodeFrom (some ⟨needed + 2, least, greatest, bits⟩) (b :: rest) =
      decodeFrom (some ⟨needed + 1, 0x80, 0xBF, bits * 0x40 + n⟩) rest := by
  rw [decodeFrom_cons, step_tail hb hleast hgreatest, if_neg (by simp), List.nil_append]
  rfl

/-- The last byte of a character adds its six bits, and the character is complete. -/
theorem decodeFrom_last {bits : ℕ} {b : UInt8} {n : ℕ} (hb : b.toNat = n + 0x80) (hn : n < 0x40)
    (rest : List UInt8) :
    decodeFrom (some ⟨1, 0x80, 0xBF, bits⟩) (b :: rest) =
      Char.ofNat (bits * 0x40 + n) :: decodeFrom none rest := by
  rw [decodeFrom_cons, step_tail hb]
  · rfl
  · show 0x80 ≤ n + 0x80
    omega
  · show n + 0x80 ≤ 0xBF
    omega

section

variable {v : ℕ}

/-- A character up to 0x7F is decoded from its one byte. -/
theorem decodeFrom_one (hv : v ≤ 0x7F) (rest : List UInt8) :
    decodeFrom none (UInt8.ofNat v :: rest) = Char.ofNat v :: decodeFrom none rest := by
  have hlead : step none (UInt8.ofNat v) = (none, [Char.ofNat v]) :=
    lead_one (toNat_ofNat (by omega)) hv
  rw [decodeFrom_cons, hlead]
  rfl

/-- A character up to 0x7FF is decoded from its two bytes. -/
theorem decodeFrom_two (hleast : 0x7F < v) (hv : v ≤ 0x7FF) (rest : List UInt8) :
    decodeFrom none
        (UInt8.ofNat (v / 64 % 0x20 + 0xC0) :: UInt8.ofNat (v % 0x40 + 0x80) :: rest) =
      Char.ofNat v :: decodeFrom none rest := by
  have hlead : step none (UInt8.ofNat (v / 64 % 0x20 + 0xC0)) =
      (some ⟨1, 0x80, 0xBF, v / 64 % 0x20⟩, []) :=
    lead_two (toNat_ofNat (by omega)) (by omega) (by omega)
  have hbits : v / 64 % 0x20 * 0x40 + v % 0x40 = v := by omega
  rw [decodeFrom_cons, hlead, List.nil_append,
    decodeFrom_last (toNat_ofNat (by omega)) (by omega), hbits]

/-- The bounds on the second byte exclude what two bytes can hold, and the surrogates. -/
theorem decodeFrom_three (hleast : 0x7FF < v) (hv : v ≤ 0xFFFF) (hvalid : v.isValidChar)
    (rest : List UInt8) :
    decodeFrom none (UInt8.ofNat (v / 4096 % 0x10 + 0xE0) ::
        UInt8.ofNat (v / 64 % 0x40 + 0x80) :: UInt8.ofNat (v % 0x40 + 0x80) :: rest) =
      Char.ofNat v :: decodeFrom none rest := by
  have hlead : step none (UInt8.ofNat (v / 4096 % 0x10 + 0xE0)) = (some ⟨2,
      if v / 4096 % 0x10 = 0 then 0xA0 else 0x80,
      if v / 4096 % 0x10 = 0xD then 0x9F else 0xBF, v / 4096 % 0x10⟩, []) :=
    lead_three (toNat_ofNat (by omega)) (by omega)
  have hlow : v / 4096 % 0x10 = 0 → (0xA0 : UInt8).toNat ≤ v / 64 % 0x40 + 0x80 := by
    intro h
    change 0xA0 ≤ _
    omega
  have hhigh : v / 4096 % 0x10 = 0xD → v / 64 % 0x40 + 0x80 ≤ (0x9F : UInt8).toNat := by
    unfold Nat.isValidChar at hvalid
    intro h
    change _ ≤ 0x9F
    omega
  have hbits : (v / 4096 % 0x10 * 0x40 + v / 64 % 0x40) * 0x40 + v % 0x40 = v := by omega
  rw [decodeFrom_cons, hlead, List.nil_append,
    decodeFrom_tail (toNat_ofNat (by omega)) (toNat_ite_le hlow) (le_toNat_ite (by omega) hhigh),
    decodeFrom_last (toNat_ofNat (by omega)) (by omega), hbits]

/-- The bounds on the second byte exclude what three bytes can hold, and what lies beyond the last
character. -/
theorem decodeFrom_four (hleast : 0xFFFF < v) (hvalid : v.isValidChar) (rest : List UInt8) :
    decodeFrom none (UInt8.ofNat (v / 262144 % 0x08 + 0xF0) ::
        UInt8.ofNat (v / 4096 % 0x40 + 0x80) :: UInt8.ofNat (v / 64 % 0x40 + 0x80) ::
        UInt8.ofNat (v % 0x40 + 0x80) :: rest) =
      Char.ofNat v :: decodeFrom none rest := by
  unfold Nat.isValidChar at hvalid
  have hlead : step none (UInt8.ofNat (v / 262144 % 0x08 + 0xF0)) = (some ⟨3,
      if v / 262144 % 0x08 = 0 then 0x90 else 0x80,
      if v / 262144 % 0x08 = 4 then 0x8F else 0xBF, v / 262144 % 0x08⟩, []) :=
    lead_four (toNat_ofNat (by omega)) (by omega)
  have hlow : v / 262144 % 0x08 = 0 → (0x90 : UInt8).toNat ≤ v / 4096 % 0x40 + 0x80 := by
    intro h
    change 0x90 ≤ _
    omega
  have hhigh : v / 262144 % 0x08 = 4 → v / 4096 % 0x40 + 0x80 ≤ (0x8F : UInt8).toNat := by
    intro h
    change _ ≤ 0x8F
    omega
  have htail : v / 64 % 0x40 + 0x80 ≤ (0xBF : UInt8).toNat := by
    change _ ≤ 0xBF
    omega
  have hbits : ((v / 262144 % 0x08 * 0x40 + v / 4096 % 0x40) * 0x40 + v / 64 % 0x40) * 0x40 +
      v % 0x40 = v := by omega
  rw [decodeFrom_cons, hlead, List.nil_append,
    decodeFrom_tail (toNat_ofNat (by omega)) (toNat_ite_le hlow) (le_toNat_ite (by omega) hhigh),
    decodeFrom_tail (toNat_ofNat (by omega)) (Nat.le_add_left _ _) htail,
    decodeFrom_last (toNat_ofNat (by omega)) (by omega), hbits]

end

/-- The bytes of a character are read as that character, whatever comes after them. -/
theorem decodeFrom_utf8EncodeChar (c : Char) (rest : List UInt8) :
    decodeFrom none (String.utf8EncodeChar c ++ rest) = c :: decodeFrom none rest := by
  have hread : Char.ofNat c.val.toNat :: decodeFrom none rest = c :: decodeFrom none rest :=
    congrArg (· :: decodeFrom none rest) (Char.ofNat_toNat c)
  rw [← hread]
  unfold String.utf8EncodeChar
  dsimp only
  split_ifs with h₁ h₂ h₃
  · exact decodeFrom_one h₁ rest
  · exact decodeFrom_two (by omega) h₂ rest
  · exact decodeFrom_three (by omega) h₃ c.valid rest
  · exact decodeFrom_four (by omega) c.valid rest

/-- What was written is read back. -/
theorem decode_encode (s : String) : decode (encode s) = s := by
  have hchars : ∀ cs : List Char, decodeFrom none (cs.flatMap String.utf8EncodeChar) = cs := by
    intro cs
    induction cs with
    | nil => rfl
    | cons c cs ih => rw [List.flatMap_cons, decodeFrom_utf8EncodeChar, ih]
  unfold decode encode
  rw [hchars, String.ofList_toList]

end TreeInspector.Text.Utf8
