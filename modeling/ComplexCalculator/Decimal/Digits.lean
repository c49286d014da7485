namespace ComplexCalculator.Decimal

/-- The last `width` digits of `n`, with leading zeros, in front of `tail`. -/
def digitsOnto : Nat → Nat → List Char → List Char
  | 0, _, tail => tail
  | width + 1, n, tail => digitsOnto width (n / 10) (Nat.digitChar (n % 10) :: tail)

def digitsOfWidth (width n : Nat) : List Char := digitsOnto width n []

/-- The text of `n / 10 ^ places` with `places` digits after the point, and no point when
there are none. -/
def placed (n places : Nat) : List Char :=
  if places = 0 then Nat.toDigits 10 n
  else Nat.toDigits 10 (n / Nat.pow 10 places) ++ '.' :: digitsOfWidth places n

theorem digitsOnto_eq_append (width n : Nat) (tail : List Char) :
    digitsOnto width n tail = digitsOfWidth width n ++ tail := by
  induction width generalizing n tail with
  | zero => rfl
  | succ width ih =>
      unfold digitsOfWidth digitsOnto
      rw [ih, ih (n / 10) [_], List.append_assoc, List.singleton_append]

theorem digitsOfWidth_zero (n : Nat) : digitsOfWidth 0 n = [] := rfl

theorem digitsOfWidth_succ (width n : Nat) :
    digitsOfWidth (width + 1) n =
      digitsOfWidth width (n / 10) ++ [Nat.digitChar (n % 10)] := by
  conv => lhs; unfold digitsOfWidth digitsOnto
  exact digitsOnto_eq_append _ _ _

theorem length_digitsOfWidth (width n : Nat) : (digitsOfWidth width n).length = width := by
  induction width generalizing n with
  | zero => rfl
  | succ width ih => simp [digitsOfWidth_succ, ih]

end ComplexCalculator.Decimal
