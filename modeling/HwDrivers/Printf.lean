import Mathlib.Data.Nat.Digits
import Mathlib.Tactic.Ring
import HwDrivers.Scanf

/-! The kernel's `scnprintf` for the conversions the drivers print with: `%s`,
`%d`, `%03d` and `%u`. Digits are rendered by `Nat.toDigits 10`, and the
digit-value fold of `%d`/`%f` reads them back. -/

namespace HwDrivers

theorem digitChar_digit : ∀ d < 10, isDigit (Nat.digitChar d) = true ∧
    digitValue (Nat.digitChar d) = d := by
  decide

theorem digitsValue_append (a b : List Char) :
    digitsValue (a ++ b) = digitsValue a * 10 ^ b.length + digitsValue b := by
  suffices h : ∀ acc, b.foldl (fun acc c => 10 * acc + digitValue c) acc =
      acc * 10 ^ b.length + digitsValue b by
    rw [digitsValue, List.foldl_append, h]; rfl
  induction b with
  | nil => simp [digitsValue]
  | cons c b ih =>
    intro acc
    simp only [List.foldl_cons, List.length_cons, digitsValue]
    rw [ih, ih (10 * 0 + digitValue c)]
    ring

theorem digitsValue_replicate_zero (k : ℕ) : digitsValue (List.replicate k '0') = 0 := by
  induction k with
  | zero => rfl
  | succ k ih =>
    rw [List.replicate_succ', digitsValue_append, ih]
    rfl

theorem toDigitsCore_append (f n : ℕ) (ds : List Char) :
    Nat.toDigitsCore 10 f n ds = Nat.toDigitsCore 10 f n [] ++ ds := by
  induction f generalizing n ds with
  | zero => rfl
  | succ f ih =>
    simp only [Nat.toDigitsCore]
    split
    · rfl
    · rw [ih _ (_ :: ds), ih _ [_], List.append_assoc, List.singleton_append]

theorem toDigitsCore_succ (f n : ℕ) :
    Nat.toDigitsCore 10 (f + 1) n [] =
      if n / 10 = 0 then [Nat.digitChar n] else
        Nat.toDigitsCore 10 f (n / 10) [] ++ [Nat.digitChar (n % 10)] := by
  simp only [Nat.toDigitsCore]
  split
  · rename_i h0
    rw [Nat.mod_eq_of_lt (by omega)]
  · exact toDigitsCore_append _ _ _

theorem toDigitsCore_spec (f n : ℕ) (h : n < f) :
    (∀ c ∈ Nat.toDigitsCore 10 f n [], isDigit c = true) ∧
      digitsValue (Nat.toDigitsCore 10 f n []) = n := by
  induction f generalizing n with
  | zero => omega
  | succ f ih =>
    rw [toDigitsCore_succ]
    split
    · rename_i h0
      have hd := digitChar_digit n (by omega)
      exact ⟨by simpa using hd.1, by simpa [digitsValue] using hd.2⟩
    · rename_i h0
      have hd := digitChar_digit (n % 10) (Nat.mod_lt _ (by omega))
      obtain ⟨hdig, hval⟩ := ih (n / 10) (by omega)
      refine ⟨fun c hc => ?_, ?_⟩
      · rcases List.mem_append.1 hc with hc | hc
        · exact hdig c hc
        · simp only [List.mem_singleton] at hc
          exact hc ▸ hd.1
      · rw [digitsValue_append, hval]
        simp only [digitsValue, List.foldl, List.length_singleton, pow_one, hd.2]
        omega

theorem toDigits_digits (n : ℕ) : ∀ c ∈ Nat.toDigits 10 n, isDigit c = true :=
  (toDigitsCore_spec (n + 1) n (by omega)).1

theorem digitsValue_toDigits (n : ℕ) : digitsValue (Nat.toDigits 10 n) = n :=
  (toDigitsCore_spec (n + 1) n (by omega)).2

theorem toDigits_ne_nil (n : ℕ) : Nat.toDigits 10 n ≠ [] := by
  rw [Nat.toDigits, toDigitsCore_succ]
  split <;> simp

theorem toDigits_length_le {n e : ℕ} (h : n < 10 ^ e) (he : 0 < e) :
    (Nat.toDigits 10 n).length ≤ e :=
  Nat.toDigitsCore_length 10 (by decide) _ n e h he

/-- `%0<w>d`: the sign, zeros up to `w` characters in all, the digits; `%d`
is `w = 0`. -/
def padded (w : ℕ) (z : ℤ) : List Char :=
  let sign := if z < 0 then ['-'] else []
  let ds := Nat.toDigits 10 z.natAbs
  sign ++ List.replicate (w - sign.length - ds.length) '0' ++ ds

theorem padded_width {w n : ℕ} (h : n < 10 ^ w) (hw : 0 < w) :
    (padded w n).length = w ∧ (∀ c ∈ padded w n, isDigit c = true) ∧
      digitsValue (padded w n) = n := by
  have hlen := toDigits_length_le h hw
  simp only [padded, Int.natAbs_ofNat, Nat.cast_nonneg, not_lt.2, if_false, List.nil_append,
    List.length_nil, Nat.sub_zero, List.length_append, List.length_replicate]
  refine ⟨by omega, fun c hc => ?_, by
    rw [digitsValue_append, digitsValue_replicate_zero, digitsValue_toDigits]; simp⟩
  rcases List.mem_append.1 hc with hc | hc
  · rw [List.eq_of_mem_replicate hc]; rfl
  · exact toDigits_digits n c hc

theorem padded_three {n : ℕ} (h : n < 1000) :
    (padded 3 n).length = 3 ∧ (∀ c ∈ padded 3 n, isDigit c = true) ∧
      digitsValue (padded 3 n) = n :=
  padded_width h (by decide)

theorem padded_of_neg (w : ℕ) {z : ℤ} (h : z < 0) :
    padded w z = '-' :: (List.replicate (w - 1 - (Nat.toDigits 10 z.natAbs).length) '0' ++
      Nat.toDigits 10 z.natAbs) := by
  simp [padded, h]

theorem padded_zero (z : ℤ) :
    padded 0 z = (if z < 0 then ['-'] else []) ++ Nat.toDigits 10 z.natAbs := by
  unfold padded
  split <;> simp

theorem padded_zero_of_nonneg (n : ℕ) : padded 0 n = Nat.toDigits 10 n := by
  simp [padded]

theorem padded_length_le {w e : ℕ} {z : ℤ} (h : z.natAbs < 10 ^ e) (he : 0 < e) :
    (padded w z).length ≤ max w (e + 1) := by
  have := toDigits_length_le h he
  unfold padded
  split <;> simp only [List.length_append, List.length_replicate, List.length_cons,
    List.length_nil] <;> omega

/-- A piece of a `printf` format with its argument. -/
inductive FmtPiece
  /-- Ordinary characters of the format. -/
  | text (t : String)
  /-- `%s`. -/
  | s (cs : List Char)
  /-- `%d`. -/
  | d (z : ℤ)
  /-- `%03d`. -/
  | d03 (z : ℤ)
  /-- `%u`. -/
  | u (n : ℕ)
  deriving DecidableEq, Repr

def FmtPiece.render : FmtPiece → List Char
  | .text t => t.toList
  | .s cs => cs
  | .d z => padded 0 z
  | .d03 z => padded 3 z
  | .u n => Nat.toDigits 10 n

/-- The full text of a format with its arguments. -/
def render (ps : List FmtPiece) : List Char := (ps.map FmtPiece.render).flatten

@[simp] theorem render_nil : render [] = [] := rfl

@[simp] theorem render_cons (p : FmtPiece) (ps : List FmtPiece) :
    render (p :: ps) = p.render ++ render ps := rfl

@[simp] theorem render_append (ps qs : List FmtPiece) :
    render (ps ++ qs) = render ps ++ render qs := by
  simp [render]

/-- `scnprintf(buf, size, ...)`: the characters it stores, at most
`size - 1`; it returns their number. -/
def scnprintf (size : ℕ) (ps : List FmtPiece) : List Char := (render ps).take (size - 1)

theorem scnprintf_of_le {size : ℕ} {ps : List FmtPiece} (h : (render ps).length + 1 ≤ size) :
    scnprintf size ps = render ps := by
  unfold scnprintf
  exact List.take_of_length_le (by omega)

end HwDrivers
