import TlsFixtures.Proofs.Decoding

/-! Numerals of a base up to sixteen, as a rule of what they write: each digit in its place, the last one worth the
least. A numeral writes one number only. -/
namespace TlsFixtures.Text.Numeral

/-- A digit and its worth; letters may be small or capital. -/
def Digit (base : Nat) (c : Char) (d : Nat) : Prop := d < base ∧ c.toLower = Nat.digitChar d

instance (base : Nat) (c : Char) (d : Nat) : Decidable (Digit base c d) :=
  inferInstanceAs (Decidable (d < base ∧ c.toLower = Nat.digitChar d))

/-- Digits that write a number. -/
inductive Writes (base : Nat) : List Char → Nat → Prop where
  | digit : Digit base c d → Writes base [c] d
  | more : Writes base front n → Digit base c d → Writes base (front ++ [c]) (base * n + d)

variable {base n m d e : Nat} {c : Char} {s : List Char}

theorem digitChar_injective : ∀ d e : Fin 16, Nat.digitChar d = Nat.digitChar e → d = e := by decide

theorem toLower_digitChar : ∀ d : Fin 16, (Nat.digitChar d).toLower = Nat.digitChar d := by decide

theorem digit_digitChar (small : d < base) (sixteen : base ≤ 16) : Digit base (Nat.digitChar d) d :=
  ⟨small, toLower_digitChar ⟨d, by omega⟩⟩

theorem Digit.unique (digit : Digit base c d) (other : Digit base c e) (sixteen : base ≤ 16) : d = e := by
  have same := digit.2.symm.trans other.2
  have bounds := digit.1
  have bounds' := other.1
  exact Fin.mk.inj (digitChar_injective ⟨d, by omega⟩ ⟨e, by omega⟩ same)

theorem Digit.ascii (digit : Digit base c d) (sixteen : base ≤ 16) : c.toNat < 128 := by
  have all : ∀ d : Fin 16, (Nat.digitChar d).toNat < 128 := by decide
  have bound := digit.1
  rw [← Utf8.toLower_ascii_iff, digit.2]
  exact all ⟨d, by omega⟩

theorem Digit.ne (digit : Digit base c d) (sixteen : base ≤ 16) {other : Char}
    (none : ∀ d : Fin 16, other.toLower ≠ Nat.digitChar d) : c ≠ other := by
  rintro rfl
  have bound := digit.1
  exact none ⟨d, by omega⟩ digit.2

theorem Writes.ne_nil (writes : Writes base s n) : s ≠ [] := by
  cases writes <;> simp

/-- The last digit of a numeral, and the numeral before it unless it is the only one. -/
theorem Writes.of_concat (writes : Writes base (s ++ [c]) n) : s = [] ∧ Digit base c n ∨
    ∃ m d, Writes base s m ∧ Digit base c d ∧ n = base * m + d := by
  generalize same : s ++ [c] = whole at writes
  cases writes with
  | digit digit =>
    obtain ⟨rfl, last⟩ := List.append_inj' (same.trans (List.nil_append _).symm) rfl
    obtain rfl := List.singleton_inj.mp last
    exact .inl ⟨rfl, digit⟩
  | more front digit =>
    obtain ⟨rfl, last⟩ := List.append_inj' same rfl
    obtain rfl := List.singleton_inj.mp last
    exact .inr ⟨_, _, front, digit, rfl⟩

theorem Writes.unique (writes : Writes base s n) (other : Writes base s m) (sixteen : base ≤ 16) : n = m := by
  induction writes generalizing m with
  | @digit c d digit =>
    rcases Writes.of_concat (s := []) other with ⟨_, digit'⟩ | ⟨_, _, front, _, _⟩
    · exact digit.unique digit' sixteen
    · exact absurd rfl front.ne_nil
  | more front digit ih =>
    rcases other.of_concat with ⟨empty, _⟩ | ⟨_, _, front', digit', rfl⟩
    · exact absurd empty front.ne_nil
    · rw [ih front', digit.unique digit' sixteen]

theorem Writes.digits (writes : Writes base s n) : ∀ c ∈ s, ∃ d, Digit base c d := by
  induction writes with
  | digit digit => exact fun c member => ⟨_, List.mem_singleton.mp member ▸ digit⟩
  | more _ digit ih =>
    intro c member
    rcases List.mem_append.mp member with front | last
    · exact ih c front
    · exact ⟨_, List.mem_singleton.mp last ▸ digit⟩

theorem writes_toDigits (large : 1 < base) (sixteen : base ≤ 16) (n : Nat) :
    Writes base (Nat.toDigits base n) n := by
  induction n using Nat.strongRecOn with
  | _ n ih =>
    by_cases small : n < base
    · rw [Nat.toDigits_of_lt_base small]
      exact .digit (digit_digitChar small sixteen)
    · have shorter := ih (n / base) (Nat.div_lt_self (by omega) large)
      have more := shorter.more (digit_digitChar (Nat.mod_lt n (by omega)) sixteen)
      rwa [← Nat.toDigits_of_base_le large (by omega), Nat.div_add_mod] at more

/-- The decimal numeral of a number: digits only, and no zero in front but for that of zero itself. -/
structure Decimal (s : List Char) (n : Nat) : Prop where
  writes : Writes 10 s n
  front : s = ['0'] ∨ s.head? ≠ some '0'

/-- A decimal digit is the character that its worth has: there is no capital form. -/
theorem Digit.eq_digitChar (digit : Digit 10 c d) : c = Nat.digitChar d := by
  obtain ⟨small, lowered⟩ := digit
  have digits : ∀ d : Fin 10, (Nat.digitChar d).toNat < 58 := by decide
  have low := digits ⟨d, small⟩
  rw [← lowered] at low
  have ascii : c.toNat < 128 := Utf8.toLower_ascii_iff.mp (by omega)
  have fixed : c.toLower.toNat < 58 → c.toLower = c :=
    Utf8.forall_ascii (P := fun c => c.toLower.toNat < 58 → c.toLower = c) (by decide) ascii
  rw [← lowered, fixed low]

/-- Digits that write zero begin with it. -/
theorem Writes.head?_zero (writes : Writes 10 s n) (zero : n = 0) : s.head? = some '0' := by
  induction writes with
  | digit digit => rw [digit.eq_digitChar, zero]; rfl
  | more _ _ ih => rw [List.head?_append, ih (by omega), Option.some_or]

theorem Writes.eq_toDigits (writes : Writes 10 s n) (front : s.head? ≠ some '0') : s = Nat.toDigits 10 n := by
  induction writes with
  | digit digit => rw [digit.eq_digitChar, Nat.toDigits_of_lt_base digit.1]
  | @more front' n c d shorter digit ih =>
    have front : front'.head? ≠ some '0' := fun zero => front (by rw [List.head?_append, zero, Option.some_or])
    have positive : n ≠ 0 := fun zero => front (shorter.head?_zero zero)
    have small := digit.1
    rw [Nat.toDigits_of_base_le (by decide) (by omega), show (10 * n + d) / 10 = n by omega,
      show (10 * n + d) % 10 = d by omega, ih front, digit.eq_digitChar]

/-- Only the number zero is written with a zero in front. -/
theorem head?_toDigits (n : Nat) : n = 0 ∨ (Nat.toDigits 10 n).head? ≠ some '0' := by
  induction n using Nat.strongRecOn with
  | _ n ih =>
    by_cases small : n < 10
    · simp [Nat.toDigits_of_lt_base small]
      omega
    · rcases ih (n / 10) (by omega) with zero | other
      · omega
      · obtain ⟨c, rest, front⟩ := List.exists_cons_of_ne_nil (@Nat.toDigits_ne_nil (n / 10) 10)
        rw [front] at other
        rw [Nat.toDigits_of_base_le (by decide) (by omega), front]
        exact .inr other

theorem decimal_iff : Decimal s n ↔ s = Nat.toDigits 10 n := by
  constructor
  · rintro ⟨writes, rfl | other⟩
    · have zero : Writes 10 ['0'] 0 := .digit ⟨by decide, by decide⟩
      rw [writes.unique zero (by decide)]
      rfl
    · exact writes.eq_toDigits other
  · rintro rfl
    refine ⟨writes_toDigits (by decide) (by decide) n, ?_⟩
    rcases head?_toDigits n with rfl | other
    · exact .inl rfl
    · exact .inr other

end TlsFixtures.Text.Numeral
