/-!
Small maps, kept as a list of bindings with one binding for each key.
-/

namespace CallAtlas

structure Bindings (κ ν : Type) where
  entries : List (κ × ν)

namespace Bindings

variable {κ ν : Type} [DecidableEq κ]

def empty : Bindings κ ν := ⟨[]⟩

def get? (m : Bindings κ ν) (k : κ) : Option ν :=
  (m.entries.find? (·.1 = k)).map Prod.snd

def insert (m : Bindings κ ν) (k : κ) (v : ν) : Bindings κ ν :=
  ⟨(k, v) :: m.entries.filter (·.1 ≠ k)⟩

def size (m : Bindings κ ν) : Nat := m.entries.length

@[simp] theorem get?_empty (k : κ) : (empty : Bindings κ ν).get? k = none := rfl

theorem get?_insert (m : Bindings κ ν) (k k' : κ) (v : ν) :
    (m.insert k v).get? k' = if k = k' then some v else m.get? k' := by
  by_cases h : k = k'
  · simp [insert, get?, h]
  · have hp : (fun e : κ × ν => !decide (e.1 = k) && decide (e.1 = k')) =
        fun e => decide (e.1 = k') := by
      funext e
      by_cases he : e.1 = k' <;> simp [he, Ne.symm h]
    simp [insert, get?, h, List.find?_filter, hp]

@[simp] theorem get?_insert_self (m : Bindings κ ν) (k : κ) (v : ν) :
    (m.insert k v).get? k = some v := by
  simp [get?_insert]

end Bindings

end CallAtlas
