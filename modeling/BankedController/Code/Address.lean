import BankedController.Code.Bank
import BankedController.Text.Hex

namespace BankedController

/-- A place in the code image, tagged with its bank when it lies above the window base. -/
inductive CodeAddr where
  | common (offset : Fin 0x8000)
  | banked (bank : Bank) (offset : Fin 0x8000)
  deriving DecidableEq

namespace CodeAddr

/-- The place that `logical` names while `bank` is mapped. Common code ignores the bank. -/
def ofLogical (bank : Bank) (logical : UInt16) : CodeAddr :=
  if h : logical.toNat < 0x8000 then
    .common ⟨logical.toNat, h⟩
  else
    .banked bank ⟨logical.toNat - 0x8000, by have := logical.toNat_lt; omega⟩

/-- The bank that has to be mapped to reach the address; common code needs none. -/
def bank? : CodeAddr → Option Bank
  | common _ => none
  | banked bank _ => some bank

/-- The address as the processor sees it while its bank is mapped. -/
def logical : CodeAddr → UInt16
  | common offset => UInt16.ofNat offset
  | banked _ offset => UInt16.ofNat (0x8000 + offset)

/-- The offset in the flat image, which holds common code, bank 0 and bank 1 in this order. -/
def physical : CodeAddr → Nat
  | common offset => offset
  | banked .bank0 offset => 0x8000 + offset
  | banked .bank1 offset => 0x10000 + offset

/-- Common code first, then the banks in turn, each by offset. -/
def before : CodeAddr → CodeAddr → Bool
  | common a, common b => a < b
  | common _, banked _ _ => true
  | banked _ _, common _ => false
  | banked a m, banked b n => a.number < b.number || (a = b && m < n)

def text : CodeAddr → String
  | common offset => "common:" ++ Text.hex 4 offset
  | banked bank offset => bank.text ++ ":" ++ Text.hex 4 (0x8000 + offset)

def fullText : CodeAddr → String
  | common offset => "Common(" ++ toString offset.val ++ ")"
  | banked bank offset =>
    "Banked \x7b bank: " ++ bank.name ++ ", offset: " ++ toString offset.val ++ " \x7d"

/-- Reading an address back through its own bank gives the address. -/
theorem ofLogical_logical (bank : Bank) (a : CodeAddr) (h : ∀ b, a.bank? = some b → b = bank) :
    ofLogical bank a.logical = a := by
  cases a with
  | common offset =>
    have hlt := offset.isLt
    have : offset.val % 65536 = offset.val := Nat.mod_eq_of_lt (by omega)
    simp [ofLogical, logical, this]
  | banked b offset =>
    have hlt := offset.isLt
    obtain rfl := h b rfl
    have : (32768 + offset.val) % 65536 = 32768 + offset.val := Nat.mod_eq_of_lt (by omega)
    simp [ofLogical, logical, this]

/-- Two addresses at one place in the image are the same address. -/
theorem physical_injective {a b : CodeAddr} (h : a.physical = b.physical) : a = b := by
  cases a with
  | common m =>
    cases b with
    | common n => simp_all [physical, Fin.ext_iff]
    | banked bank n =>
      have := m.isLt
      cases bank <;> simp only [physical] at h <;> omega
  | banked bank m =>
    have := m.isLt
    cases b with
    | common n =>
      have := n.isLt
      cases bank <;> simp only [physical] at h <;> omega
    | banked bank' n =>
      have := n.isLt
      cases bank <;> cases bank' <;> simp [physical] at h <;> simp [Fin.ext_iff] <;> omega

theorem before_iff (a b : CodeAddr) : a.before b = true ↔ a.physical < b.physical := by
  cases a with
  | common m =>
    cases b with
    | common n => exact (decide_eq_true_iff : _ ↔ m < n)
    | banked bank n =>
      have := m.isLt
      cases bank <;> simp [before, physical] <;> omega
  | banked bank m =>
    have := m.isLt
    cases b with
    | common n =>
      have := n.isLt
      cases bank <;> simp [before, physical] <;> omega
    | banked bank' n =>
      have := n.isLt
      cases bank <;> cases bank' <;> simp [before, physical, Bank.number] <;> omega

end CodeAddr

end BankedController
