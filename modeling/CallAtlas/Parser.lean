/-!
Readers of lists of symbols. A reader that fails tells how many symbols were left where it stopped, and of
two readings that both fail the one that came further is reported.
-/

namespace CallAtlas

structure Source (τ : Type) where
  rest : List τ
  left : Nat

def Source.ofList {τ : Type} (symbols : List τ) : Source τ := ⟨symbols, symbols.length⟩

abbrev Parser (τ : Type) := StateT (Source τ) (Except Nat)

namespace Parser

variable {τ α : Type}

def refuse : Parser τ α := fun s => .error s.left

def require (condition : Bool) : Parser τ Unit :=
  if condition then pure () else refuse

def either (p q : Parser τ α) : Parser τ α := fun s =>
  match p s with
  | .ok r => .ok r
  | .error i =>
    match q s with
    | .ok r => .ok r
    | .error j => .error (min i j)

/-- Repeats a step until it answers `none`. A step that reads nothing is the last one. -/
def loop (step : α → Parser τ (Option α)) (a : α) : Parser τ α := fun s =>
  match step a s with
  | .error i => .error i
  | .ok (none, s') => .ok (a, s')
  | .ok (some b, s') => if s'.left < s.left then loop step b s' else .ok (b, s')
termination_by s => s.left

def next? : Parser τ (Option τ) := fun s => .ok (s.rest.head?, s)

def ahead? (n : Nat) : Parser τ (Option τ) := fun s => .ok (s.rest[n]?, s)

def skip : Parser τ Unit := fun s =>
  match s.rest with
  | [] => .error s.left
  | _ :: rest => .ok ((), ⟨rest, s.left - 1⟩)

def isEnd : Parser τ Bool := return (← next?).isNone

end Parser

end CallAtlas
