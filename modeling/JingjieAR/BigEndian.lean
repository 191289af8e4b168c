import Mathlib.Data.List.Induction
import Mathlib.Data.Nat.Notation
import Mathlib.Tactic.Common
import Mathlib.Tactic.Ring

/-! Numbers written as bytes, the highest byte first, and strings with their length in
front of them. What is written is read back, whatever follows, and what is read is written
that way. -/
namespace JingjieAR.BigEndian

/-- The lowest `n` bytes of a number. -/
def put : ℕ → ℕ → List UInt8
  | 0, _ => []
  | n+1, value => UInt8.ofNat (value >>> (8*n)) :: put n value

/-- Read `n` bytes, and give the rest. -/
def get (n : ℕ) (text : List UInt8) : Option (ℕ × List UInt8) :=
  if text.length < n then none
  else some ((text.take n).foldl (fun value b => value <<< 8 ||| b.toNat) 0, text.drop n)

/-- A string behind its length. -/
def putString (text : List UInt8) : List UInt8 := put 4 text.length++text

def getString (text : List UInt8) : Option (List UInt8 × List UInt8) :=
  (get 4 text).bind fun (size, rest) =>
    if size > rest.length then none else some (rest.take size, rest.drop size)

@[simp] theorem length_put (n value : ℕ) : (put n value).length = n := by
  induction n with
  | zero => rfl
  | succ n ih => simp [put, ih]

theorem shift_or (value : ℕ) (b : UInt8) : value <<< 8 ||| b.toNat = value*256+b.toNat := by
  rw [← Nat.shiftLeft_add_eq_or_of_lt b.toNat_lt, Nat.shiftLeft_eq]

/-- The bytes read so far stand above the ones to come. -/
theorem foldl_put (n value start : ℕ) :
    (put n value).foldl (fun value b => value <<< 8 ||| b.toNat) start =
      start*256^n+value % 256^n := by
  induction n generalizing start with
  | zero => simp [put, Nat.mod_one]
  | succ n ih =>
    have hbyte : (UInt8.ofNat (value >>> (8*n))).toNat = value / 256^n % 256 := by
      rw [UInt8.toNat_ofNat', Nat.shiftRight_eq_div_pow, pow_mul]
      rfl
    have hmod : value % 256^(n+1) = value % 256^n+256^n*(value / 256^n % 256) := by
      rw [pow_succ, Nat.mod_mul]
    rw [put, List.foldl_cons, ih, shift_or, hbyte, hmod]
    ring

theorem get_put {n value : ℕ} (h : value < 256^n) (rest : List UInt8) :
    get n (put n value++rest) = some (value, rest) := by
  rw [get, if_neg (by simp), List.take_left' (length_put n value),
    List.drop_left' (length_put n value), foldl_put, Nat.mod_eq_of_lt h, zero_mul, zero_add]

theorem getString_putString {text : List UInt8} (h : text.length < 256^4) (rest : List UInt8) :
    getString (putString text++rest) = some (text, rest) := by
  rw [getString, putString, List.append_assoc, get_put h, Option.bind_some]
  simp

/-- The last byte of a number. -/
theorem put_succ (n value : ℕ) (b : UInt8) :
    put (n+1) (value*256+b.toNat) = put n value++[b] := by
  have hb := b.toNat_lt
  induction n with
  | zero =>
    have hbyte : (value*256+b.toNat) % 256 = b.toNat := by omega
    have hmod : UInt8.ofNat (value*256+b.toNat) = b := by
      rw [← UInt8.toNat_inj, UInt8.toNat_ofNat', hbyte]
    simp [put, hmod]
  | succ n ih =>
    have hshift : (value*256+b.toNat) >>> (8*(n+1)) = value >>> (8*n) := by
      have hfirst : (value*256+b.toNat) >>> 8 = value := by
        rw [Nat.shiftRight_eq_div_pow]
        omega
      rw [mul_add, mul_one, add_comm (8*n), Nat.shiftRight_add, hfirst]
    rw [put, hshift, ih, put, List.cons_append]

/-- Bytes that are read as a number are written as that number. -/
theorem put_foldl (bytes : List UInt8) :
    put bytes.length (bytes.foldl (fun value b => value <<< 8 ||| b.toNat) 0) = bytes ∧
      bytes.foldl (fun value b => value <<< 8 ||| b.toNat) 0 < 256^bytes.length := by
  induction bytes using List.reverseRec with
  | nil => exact ⟨rfl, by simp⟩
  | append_singleton bytes b ih =>
    obtain ⟨hput, hlt⟩ := ih
    have hb := b.toNat_lt
    rw [List.foldl_append, List.foldl_cons, List.foldl_nil, shift_or, List.length_append,
      List.length_singleton, put_succ, hput, pow_succ]
    refine ⟨rfl, ?_⟩
    omega

/-- What is read stands in front of the text. -/
theorem eq_put_of_get {n value : ℕ} {text rest : List UInt8} (h : get n text = some (value, rest)) :
    text = put n value++rest ∧ value < 256^n := by
  rw [get, Option.ite_none_left_eq_some] at h
  obtain ⟨hlength, h⟩ := h
  obtain ⟨rfl, rfl⟩ := Prod.mk.inj (Option.some.inj h)
  have htake : (text.take n).length = n := List.length_take_of_le (not_lt.mp hlength)
  have hread := put_foldl (text.take n)
  rw [htake] at hread
  refine ⟨?_, hread.2⟩
  rw [hread.1, List.take_append_drop]

theorem eq_putString_of_getString {value text rest : List UInt8}
    (h : getString text = some (value, rest)) :
    text = putString value++rest ∧ value.length < 256^4 := by
  obtain ⟨⟨size, tail⟩, hget, htail⟩ := Option.bind_eq_some_iff.mp h
  obtain ⟨rfl, hsize⟩ := eq_put_of_get hget
  obtain ⟨hle, h⟩ := Option.ite_none_left_eq_some.mp htail
  obtain ⟨rfl, rfl⟩ := Prod.mk.inj (Option.some.inj h)
  have htake : (tail.take size).length = size := List.length_take_of_le (not_lt.mp hle)
  rw [putString, htake, List.append_assoc, List.take_append_drop]
  exact ⟨rfl, hsize⟩

end JingjieAR.BigEndian
