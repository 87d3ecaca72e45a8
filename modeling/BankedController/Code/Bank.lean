namespace BankedController

/-- One of the two banks of code that share the upper half of the logical code space. -/
inductive Bank where
  | bank0
  | bank1
  deriving DecidableEq, Inhabited

namespace Bank

/-- The value written to the bank-select register. -/
def number : Bank → Nat
  | bank0 => 0
  | bank1 => 1

def text (bank : Bank) : String :=
  "bank" ++ toString bank.number

def name (bank : Bank) : String :=
  "Bank" ++ toString bank.number

end Bank

/-- The bank-select register: which bank is mapped, and how often that changed. -/
structure BankWindow where
  active : Bank
  switches : Nat
  deriving DecidableEq

namespace BankWindow

/-- Bank 0 is mapped when the controller comes out of reset. -/
def initial : BankWindow := ⟨.bank0, 0⟩

/-- Maps `bank`. Mapping the bank that is mapped already changes nothing. -/
def select (window : BankWindow) (bank : Bank) : BankWindow :=
  if window.active = bank then window else ⟨bank, window.switches + 1⟩

@[simp] theorem active_select (window : BankWindow) (bank : Bank) :
    (window.select bank).active = bank := by
  unfold select
  split
  · assumption
  · rfl

theorem select_self (window : BankWindow) : window.select window.active = window := by
  simp [select]

end BankWindow

end BankedController
