/-!
Maps from natural numbers: binary tries.

The value at zero is at the root; the values at odd numbers are in one branch and those at the other
even numbers in the other one. The laws say what is found after an insertion and after an update.
-/

set_option autoImplicit false

namespace CostWatch

inductive NatMap (α : Type) where
  | empty
  | node (here : Option α) (odd even : NatMap α)

namespace NatMap

variable {α : Type}

def get? : NatMap α → Nat → Option α
  | empty, _ => none
  | node here odd even, n =>
    if n = 0 then here
    else if n % 2 = 1 then odd.get? (n / 2)
    else even.get? (n / 2 - 1)

def getD (map : NatMap α) (n : Nat) (otherwise : α) : α :=
  (map.get? n).getD otherwise

def modify (f : α → α) : NatMap α → Nat → NatMap α
  | empty, _ => empty
  | node here odd even, n =>
    if n = 0 then node (here.map f) odd even
    else if n % 2 = 1 then node here (odd.modify f (n / 2)) even
    else node here odd (even.modify f (n / 2 - 1))

def parts : NatMap α → Option α × NatMap α × NatMap α
  | empty => (none, empty, empty)
  | node here odd even => (here, odd, even)

/-- The map with a value at a number that is less than `bound`. -/
def insertBelow (a : α) : Nat → Nat → NatMap α → NatMap α
  | 0, _, map => map
  | bound + 1, n, map =>
    let (here, odd, even) := map.parts
    if n = 0 then node (some a) odd even
    else if n % 2 = 1 then node here (insertBelow a bound (n / 2) odd) even
    else node here odd (insertBelow a bound (n / 2 - 1) even)

def insert (map : NatMap α) (n : Nat) (a : α) : NatMap α :=
  insertBelow a (n + 1) n map

def ofList (values : List α) : NatMap α :=
  values.zipIdx.foldl (fun map (a, n) => map.insert n a) empty

theorem get?_empty (n : Nat) : (empty : NatMap α).get? n = none := rfl

theorem get?_parts (map : NatMap α) (n : Nat) :
    map.get? n =
      if n = 0 then map.parts.1
      else if n % 2 = 1 then map.parts.2.1.get? (n / 2)
      else map.parts.2.2.get? (n / 2 - 1) := by
  cases map with
  | empty => simp [get?, parts]
  | node here odd even => simp [get?, parts]

theorem get?_insertBelow (a : α) {bound n : Nat} (less : n < bound) (map : NatMap α) (k : Nat) :
    (insertBelow a bound n map).get? k = if k = n then some a else map.get? k := by
  induction bound generalizing n k map with
  | zero => omega
  | succ bound ih =>
    rw [get?_parts map k]
    unfold insertBelow
    by_cases zero : n = 0
    · subst zero
      by_cases hk : k = 0 <;> simp [get?, hk]
    · by_cases odd : n % 2 = 1
      · by_cases hk : k = 0
        · simp [get?, zero, odd, hk, Ne.symm zero]
        · by_cases ko : k % 2 = 1
          · have same : k / 2 = n / 2 ↔ k = n := by omega
            simp [get?, zero, odd, hk, ko, ih (n := n / 2) (by omega), same]
          · have differ : k ≠ n := by omega
            simp [get?, zero, odd, hk, ko, differ]
      · by_cases hk : k = 0
        · simp [get?, zero, odd, hk, Ne.symm zero]
        · by_cases ko : k % 2 = 1
          · have differ : k ≠ n := by omega
            simp [get?, zero, odd, hk, ko, differ]
          · have same : k / 2 - 1 = n / 2 - 1 ↔ k = n := by omega
            simp [get?, zero, odd, hk, ko, ih (n := n / 2 - 1) (by omega), same]

theorem get?_insert (map : NatMap α) (n : Nat) (a : α) (k : Nat) :
    (map.insert n a).get? k = if k = n then some a else map.get? k :=
  get?_insertBelow a (Nat.lt_succ_self n) map k

theorem get?_modify (f : α → α) (map : NatMap α) (n k : Nat) :
    (map.modify f n).get? k = if k = n then (map.get? k).map f else map.get? k := by
  induction map generalizing n k with
  | empty => simp [modify, get?]
  | node here odd even odds evens =>
    unfold modify
    by_cases zero : n = 0
    · subst zero
      by_cases hk : k = 0 <;> simp [get?, hk]
    · by_cases isOdd : n % 2 = 1
      · by_cases hk : k = 0
        · simp [get?, zero, isOdd, hk, Ne.symm zero]
        · by_cases ko : k % 2 = 1
          · have same : k / 2 = n / 2 ↔ k = n := by omega
            simp [get?, zero, isOdd, hk, ko, odds, same]
          · have differ : k ≠ n := by omega
            simp [get?, zero, isOdd, hk, ko, differ]
      · by_cases hk : k = 0
        · simp [get?, zero, isOdd, hk, Ne.symm zero]
        · by_cases ko : k % 2 = 1
          · have differ : k ≠ n := by omega
            simp [get?, zero, isOdd, hk, ko, differ]
          · have same : k / 2 - 1 = n / 2 - 1 ↔ k = n := by omega
            simp [get?, zero, isOdd, hk, ko, evens, same]

theorem get?_foldl_insert (values : List α) (first : Nat) (map : NatMap α) (k : Nat) :
    ((values.zipIdx first).foldl (fun map (a, n) => map.insert n a) map).get? k =
      if first ≤ k then values[k - first]?.or (map.get? k) else map.get? k := by
  induction values generalizing first map with
  | nil => simp
  | cons a rest ih =>
    rw [List.zipIdx_cons, List.foldl_cons, ih, get?_insert]
    by_cases here : k = first
    · subst here
      have past : ¬ k + 1 ≤ k := Nat.not_succ_le_self k
      simp [past]
    · by_cases further : first + 1 ≤ k
      · have next : k - first = k - (first + 1) + 1 := by omega
        have within : first ≤ k := by omega
        simp [further, within, here, next]
      · have before : ¬ first ≤ k := by omega
        simp [further, before, here]

theorem get?_ofList (values : List α) (k : Nat) : (ofList values).get? k = values[k]? := by
  rw [ofList, get?_foldl_insert, if_pos (Nat.zero_le k), get?_empty, Option.or_none, Nat.sub_zero]

end NatMap

end CostWatch
