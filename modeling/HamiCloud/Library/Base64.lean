import Mathlib

/-!
# Base64 with the URL-safe alphabet

Groups of three bytes are written as four characters, and a shorter last group is filled up with `=`. The decoder is the
tolerant one of `binascii`: it skips characters outside the alphabet and ends at the padding of a group. It inverts
encoding, and the padding can be recovered from the length of what precedes it.
-/

namespace Library

/-- The bytes of a text. -/
def utf8 (text : String) : List UInt8 := text.toUTF8.data.toList

lemma utf8_injective : Function.Injective utf8 := by
  intro s t h
  exact String.toByteArray_inj.mp (ByteArray.ext (Array.toList_inj.mp h))

namespace Base64

def alphabet : List Char := "ABCDEFGHIJKLMNOPQRSTUVWXYZabcdefghijklmnopqrstuvwxyz0123456789-_".toList

def digit (n : Nat) : Char := alphabet.getD n '='

def value (c : Char) : Option Nat := alphabet.idxOf? c

lemma digit_ne_pad : ∀ n < 64, digit n ≠ '=' := by decide +kernel

def encode : List UInt8 → List Char
  | [] => []
  | [a] => [digit (a.toNat / 4), digit (a.toNat % 4 * 16), '=', '=']
  | [a, b] => [digit (a.toNat / 4), digit (a.toNat % 4 * 16 + b.toNat / 16), digit (b.toNat % 16 * 4), '=']
  | a :: b :: c :: bytes =>
    digit (a.toNat / 4) :: digit (a.toNat % 4 * 16 + b.toNat / 16) :: digit (b.toNat % 16 * 4 + c.toNat / 64) ::
      digit (c.toNat % 64) :: encode bytes

/-- The value of a character of the URL-safe alphabet, or of the two characters it replaces. -/
def lenientValue (c : Char) : Option Nat := value (if c = '+' then '-' else if c = '/' then '_' else c)

lemma lenientValue_digit : ∀ n < 64, lenientValue (digit n) = some n := by decide +kernel

/-- The state of the decoder: how many characters of the current group were read, the bits of the last of them that are
still to be written, and the padding characters since then. -/
structure Scan where
  pos : Nat
  left : Nat
  pads : Nat

/-- The bytes that a character completes, and the next state. -/
def Scan.read (s : Scan) (v : Nat) : List UInt8 × Scan :=
  match s.pos with
  | 0 => ([], ⟨1, v, 0⟩)
  | 1 => ([UInt8.ofNat (s.left * 4 + v / 16)], ⟨2, v % 16, 0⟩)
  | 2 => ([UInt8.ofNat (s.left * 16 + v / 4)], ⟨3, v % 4, 0⟩)
  | _ => ([UInt8.ofNat (s.left * 64 + v)], ⟨0, 0, 0⟩)

def decodeFrom : Scan → List Char → Option (List UInt8)
  | s, [] => if s.pos = 0 then some [] else none
  | s, c :: text =>
    if c = '=' then
      if s.pos < 2 then decodeFrom s text
      else if 4 ≤ s.pos + (s.pads + 1) then some []
      else decodeFrom { s with pads := s.pads + 1 } text
    else
      match lenientValue c with
      | none => decodeFrom s text
      | some v => (decodeFrom (s.read v).2 text).map ((s.read v).1 ++ ·)

def decode (text : List Char) : Option (List UInt8) := decodeFrom ⟨0, 0, 0⟩ text

lemma decodeFrom_digit {n : Nat} (hn : n < 64) (s : Scan) (text : List Char) :
    decodeFrom s (digit n :: text) = (decodeFrom (s.read n).2 text).map ((s.read n).1 ++ ·) := by
  rw [decodeFrom, if_neg (digit_ne_pad n hn), lenientValue_digit n hn]

lemma ofNat_eq {n : Nat} {a : UInt8} (h : n = a.toNat) : UInt8.ofNat n = a := by
  rw [h, UInt8.ofNat_toNat]

theorem decode_encode (bytes : List UInt8) : decode (encode bytes) = some bytes := by
  unfold decode
  fun_induction encode bytes with
  | case1 => rfl
  | case2 a =>
    have ha := a.toNat_lt
    rw [decodeFrom_digit (by omega), decodeFrom_digit (by omega)]
    simp only [Scan.read]
    exact congrArg (fun x => some [x]) (ofNat_eq (by omega))
  | case3 a b =>
    have ha := a.toNat_lt
    have hb := b.toNat_lt
    rw [decodeFrom_digit (by omega), decodeFrom_digit (by omega), decodeFrom_digit (by omega)]
    simp only [Scan.read]
    exact congrArg₂ (fun x y => some [x, y]) (ofNat_eq (by omega)) (ofNat_eq (by omega))
  | case4 a b c bytes ih =>
    have ha := a.toNat_lt
    have hb := b.toNat_lt
    have hc := c.toNat_lt
    rw [decodeFrom_digit (by omega), decodeFrom_digit (by omega), decodeFrom_digit (by omega),
      decodeFrom_digit (by omega)]
    simp only [Scan.read, ih, Option.map_some]
    rw [ofNat_eq (a := a) (by omega), ofNat_eq (a := b) (by omega), ofNat_eq (a := c) (by omega)]
    rfl

/-- An encoded text is a text without `=`, filled up with at most two of them to a multiple of four characters. -/
theorem encode_eq (bytes : List UInt8) :
    ∃ text pad, encode bytes = text ++ List.replicate pad '=' ∧ '=' ∉ text ∧ pad ≤ 2 ∧ (text.length + pad) % 4 = 0 := by
  have hdigit : ∀ n, n < 64 → '=' ≠ digit n := fun n hn he => digit_ne_pad n hn he.symm
  fun_induction encode bytes with
  | case1 => exact ⟨[], 0, rfl, by simp, by omega, rfl⟩
  | case2 a =>
    have ha := a.toNat_lt
    refine ⟨[digit (a.toNat / 4), digit (a.toNat % 4 * 16)], 2, rfl, ?_, by omega, by simp⟩
    simp [hdigit (a.toNat / 4) (by omega), hdigit (a.toNat % 4 * 16) (by omega)]
  | case3 a b =>
    have ha := a.toNat_lt
    have hb := b.toNat_lt
    refine ⟨[digit (a.toNat / 4), digit (a.toNat % 4 * 16 + b.toNat / 16), digit (b.toNat % 16 * 4)], 1, rfl, ?_,
      by omega, by simp⟩
    simp [hdigit (a.toNat / 4) (by omega), hdigit (a.toNat % 4 * 16 + b.toNat / 16) (by omega),
      hdigit (b.toNat % 16 * 4) (by omega)]
  | case4 a b c bytes ih =>
    have ha := a.toNat_lt
    have hb := b.toNat_lt
    have hc := c.toNat_lt
    obtain ⟨text, pad, htext, hno, hpad, hlen⟩ := ih
    refine ⟨digit (a.toNat / 4) :: digit (a.toNat % 4 * 16 + b.toNat / 16) ::
      digit (b.toNat % 16 * 4 + c.toNat / 64) :: digit (c.toNat % 64) :: text, pad, ?_, ?_, hpad, ?_⟩
    · rw [htext]
      rfl
    · simp [hno, hdigit (a.toNat / 4) (by omega), hdigit (a.toNat % 4 * 16 + b.toNat / 16) (by omega),
        hdigit (b.toNat % 16 * 4 + c.toNat / 64) (by omega), hdigit (c.toNat % 64) (by omega)]
    · simp only [List.length_cons]
      omega

lemma digit_ascii : ∀ n < 64, (digit n).toNat < 128 := by decide +kernel

lemma encode_ascii (bytes : List UInt8) : ∀ c ∈ encode bytes, c.toNat < 128 := by
  fun_induction encode bytes with
  | case1 => simp
  | case2 a =>
    have ha := a.toNat_lt
    simp [digit_ascii (a.toNat / 4) (by omega), digit_ascii (a.toNat % 4 * 16) (by omega)]
  | case3 a b =>
    have ha := a.toNat_lt
    have hb := b.toNat_lt
    simp [digit_ascii (a.toNat / 4) (by omega), digit_ascii (a.toNat % 4 * 16 + b.toNat / 16) (by omega),
      digit_ascii (b.toNat % 16 * 4) (by omega)]
  | case4 a b c bytes ih =>
    have ha := a.toNat_lt
    have hb := b.toNat_lt
    have hc := c.toNat_lt
    simpa [digit_ascii (a.toNat / 4) (by omega), digit_ascii (a.toNat % 4 * 16 + b.toNat / 16) (by omega),
      digit_ascii (b.toNat % 16 * 4 + c.toNat / 64) (by omega), digit_ascii (c.toNat % 64) (by omega)] using ih

/-- The padding that the length asks for. -/
def pad (text : List Char) : List Char := text ++ List.replicate ((4 - text.length % 4) % 4) '='

lemma rdropWhile_pad {text : List Char} (h : '=' ∉ text) (n : Nat) :
    (text ++ List.replicate n '=').rdropWhile (· = '=') = text := by
  induction n with
  | zero =>
    rw [List.replicate_zero, List.append_nil, List.rdropWhile_eq_self_iff]
    intro hne he
    exact h ((of_decide_eq_true he) ▸ List.getLast_mem hne)
  | succ n ih =>
    rw [List.replicate_succ', ← List.append_assoc, List.rdropWhile_concat_pos _ _ _ (by simp), ih]

lemma pad_encode (bytes : List UInt8) : pad (encode bytes) = encode bytes := by
  obtain ⟨text, n, hencode, -, -, hlen⟩ := encode_eq bytes
  have hzero : (4 - (encode bytes).length % 4) % 4 = 0 := by
    rw [hencode, List.length_append, List.length_replicate, hlen]
  rw [pad, hzero, List.replicate_zero, List.append_nil]

/-- The padding is recovered from the length once it was stripped. -/
lemma pad_rdropWhile_encode (bytes : List UInt8) : pad ((encode bytes).rdropWhile (· = '=')) = encode bytes := by
  obtain ⟨text, n, hencode, hplain, hn, hlen⟩ := encode_eq bytes
  have hmissing : (4 - text.length % 4) % 4 = n := by omega
  rw [hencode, rdropWhile_pad hplain, pad, hmissing]

end Base64

end Library
