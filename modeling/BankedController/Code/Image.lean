import BankedController.Code.Address
import BankedController.Text.Quoted

namespace BankedController

/-- A routine in the image. What the routine is, the image does not ask. -/
structure Placed (ρ : Type) where
  name : String
  addr : CodeAddr
  body : ρ

def Placed.fullText {ρ : Type} (p : Placed ρ) : String :=
  "Placed \x7b name: " ++ Text.quoted p.name ++ ", addr: " ++ p.addr.fullText ++ ", .. \x7d"

structure Collision where
  addr : CodeAddr
  incoming : String
  resident : String
  deriving DecidableEq

def Collision.message (c : Collision) : String :=
  "code image collision at " ++ c.addr.text ++ ": `" ++ c.incoming ++ "` overlaps `" ++
    c.resident ++ "`"

/-- The routines of an image, by ascending address. -/
structure CodeImage (ρ : Type) where
  routines : List (Placed ρ)

namespace CodeImage

variable {ρ : Type}

def empty : CodeImage ρ := ⟨[]⟩

def get? (image : CodeImage ρ) (addr : CodeAddr) : Option (Placed ρ) :=
  image.routines.find? fun p => p.addr = addr

def contains (image : CodeImage ρ) (addr : CodeAddr) : Bool :=
  (image.get? addr).isSome

/-- The routine that the processor reaches at a logical address while `active` is mapped. -/
def resolve (image : CodeImage ρ) (logical : UInt16) (active : Bank) : Option (Placed ρ) :=
  image.get? (CodeAddr.ofLogical active logical)

/-- Puts `p` before the first routine at a later address. -/
def insert (p : Placed ρ) : List (Placed ρ) → List (Placed ρ)
  | [] => [p]
  | q :: rest => if p.addr.before q.addr then p :: q :: rest else q :: insert p rest

/-- Adds a routine, or reports the one that stands at its address already. -/
def place (image : CodeImage ρ) (p : Placed ρ) : Except Collision (CodeImage ρ) :=
  match image.get? p.addr with
  | some resident => .error ⟨p.addr, p.name, resident.name⟩
  | none => .ok ⟨insert p image.routines⟩

def ofList (routines : List (Placed ρ)) : CodeImage ρ :=
  ⟨routines.foldr insert []⟩

/-- Adds routines in order, up to the first that stands where one stands already. -/
def placeAll : List (Placed ρ) → CodeImage ρ → Except Collision (CodeImage ρ)
  | [], image => .ok image
  | p :: rest, image =>
    match image.place p with
    | .ok image => placeAll rest image
    | .error c => .error c

def size (image : CodeImage ρ) : Nat := image.routines.length

def listing (image : CodeImage ρ) : List (String × CodeAddr) :=
  image.routines.map fun p => (p.name, p.addr)

/-- Replaces every routine and keeps its name and its address. -/
def map {τ : Type} (f : Placed ρ → τ) (image : CodeImage ρ) : CodeImage τ :=
  ⟨image.routines.map fun p => ⟨p.name, p.addr, f p⟩⟩

/-- A routine that was placed is found at its address, and nothing else is found anywhere else than
before. -/
theorem get?_insert {p : Placed ρ} {rs : List (Placed ρ)} (h : ∀ q ∈ rs, q.addr ≠ p.addr)
    (addr : CodeAddr) :
    (⟨insert p rs⟩ : CodeImage ρ).get? addr =
      if p.addr = addr then some p else (⟨rs⟩ : CodeImage ρ).get? addr := by
  simp only [get?]
  induction rs with
  | nil => simp [insert]
  | cons r rest ih =>
    have hr : r.addr ≠ p.addr := h r List.mem_cons_self
    have hrest := ih fun q hq => h q (List.mem_cons_of_mem _ hq)
    unfold insert
    split
    · by_cases hp : p.addr = addr <;> simp [hp]
    · by_cases hp : p.addr = addr
      · have : r.addr ≠ addr := hp ▸ hr
        simp [this, hrest, hp]
      · by_cases hra : r.addr = addr <;> simp [hra, hrest, hp]

theorem mem_insert {p q : Placed ρ} {rs : List (Placed ρ)} :
    q ∈ insert p rs ↔ q = p ∨ q ∈ rs := by
  induction rs with
  | nil => simp [insert]
  | cons r rest ih =>
    unfold insert
    split
    · simp
    · simp only [List.mem_cons, ih]
      exact or_left_comm

end CodeImage

end BankedController
