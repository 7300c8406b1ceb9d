/-!
Dictionaries that keep the order in which their keys were first put in.
-/

namespace TierHost

/-- Entries in the order of the first insertion of their keys. -/
abbrev Listing (κ ν : Type) := List (κ × ν)

namespace Listing

variable {κ ν : Type}

def keys (l : Listing κ ν) : List κ := l.map (·.1)

theorem keys_cons (e : κ × ν) (l : Listing κ ν) : keys (e :: l) = e.1 :: keys l := rfl

def values (l : Listing κ ν) : List ν := l.map (·.2)

variable [DecidableEq κ]

def get? (l : Listing κ ν) (k : κ) : Option ν := (l.find? fun e => e.1 = k).map (·.2)

/-- Sets the value of a key, in place if the key is there and at the end otherwise. -/
def put (k : κ) (v : ν) : Listing κ ν → Listing κ ν
  | [] => [(k, v)]
  | (k', v') :: rest => if k' = k then (k, v) :: rest else (k', v') :: put k v rest

theorem get?_put_self (k : κ) (v : ν) (l : Listing κ ν) : (put k v l).get? k = some v := by
  induction l with
  | nil => simp [put, get?]
  | cons e rest ih => by_cases h : e.1 = k <;> simp_all [put, get?]

theorem get?_put_of_ne {k k' : κ} (h : k' ≠ k) (v : ν) (l : Listing κ ν) :
    (put k v l).get? k' = l.get? k' := by
  induction l with
  | nil => simp [put, get?, h.symm]
  | cons e rest ih =>
    by_cases he : e.1 = k
    · simp [put, get?, he, h.symm]
    · by_cases hk : e.1 = k' <;> simp_all [put, get?]

/-- A key that is there keeps its place, and a new one goes to the end. -/
theorem keys_put (k : κ) (v : ν) (l : Listing κ ν) :
    (put k v l).keys = if k ∈ l.keys then l.keys else l.keys ++ [k] := by
  induction l with
  | nil => rfl
  | cons e rest ih =>
    by_cases he : e.1 = k
    · simp [put, he, keys_cons]
    · by_cases hk : k ∈ keys rest <;> simp [put, he, hk, keys_cons, ih, Ne.symm he]

def remove (k : κ) (l : Listing κ ν) : Listing κ ν := l.filter fun e => e.1 ≠ k

/-- The dictionary that puts the pairs in one after another. -/
def ofPairs (pairs : List (κ × ν)) : Listing κ ν := pairs.foldl (fun l e => put e.1 e.2 l) []

end Listing

end TierHost
