namespace ComplexCalculator

/-- The number `re + im·j`. -/
structure Cartesian (α : Type) where
  re : α
  im : α
deriving DecidableEq

namespace Cartesian

variable {α : Type} [Add α] [Sub α] [Mul α] [Div α]

def add (a b : Cartesian α) : Cartesian α :=
  ⟨a.re + b.re, a.im + b.im⟩

def sub (a b : Cartesian α) : Cartesian α :=
  ⟨a.re - b.re, a.im - b.im⟩

def mul (a b : Cartesian α) : Cartesian α :=
  ⟨a.re * b.re - a.im * b.im, a.re * b.im + a.im * b.re⟩

def normSq (a : Cartesian α) : α :=
  a.re * a.re + a.im * a.im

/-- The quotient, by multiplication with the conjugate of the divisor. -/
def div (a b : Cartesian α) : Cartesian α :=
  ⟨(a.re * b.re + a.im * b.im) / b.normSq, (a.im * b.re - a.re * b.im) / b.normSq⟩

def neg [Neg α] (a : Cartesian α) : Cartesian α :=
  ⟨-a.re, -a.im⟩

end Cartesian

end ComplexCalculator
