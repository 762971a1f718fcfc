import DrakNet.Queue

/-!
`DataStructures::List`, as far as the ordered containers use it: the items of
the list without the room its array has behind them. `Insert` without a position
is `++`, and `RemoveFromEnd` is `dropLast`.
-/

namespace DataStructures.List

open CString DrakNet

variable {listType : Type}

def operatorAt (build : Build) (list : List listType) (position : Nat) :
    Except Failure listType := do
  Queue.check build (position < list.length)
  match list[position]? with
  | some found => return found
  | none => .error (.fault .readPast)

def insertAt (build : Build) (list : List listType) (input : listType) (position : Nat) :
    Except Failure (List listType) := do
  Queue.check build (position ≤ list.length)
  -- past the end, `counter` runs away from `position`
  if position ≤ list.length then
    return list.insertIdx position input
  else
    .error (.fault .writePast)

def removeAtIndex (build : Build) (list : List listType) (position : Nat) :
    Except Failure (List listType) := do
  Queue.check build (position < list.length)
  return list.eraseIdx position

variable {list : List listType}

theorem operator_at_ok (build : Build) {position : Nat} (inside : position < list.length) :
    operatorAt build list position = .ok list[position] := by
  have checked := Queue.check_true build (decide_eq_true inside)
  simp only [operatorAt, checked, List.getElem?_eq_getElem inside, bind, Except.bind, pure,
    Except.pure]

theorem operator_at_inside {build : Build} {position : Nat} {found : listType}
    (read : operatorAt build list position = .ok found) : position < list.length := by
  by_contra outside
  rw [operatorAt, List.getElem?_eq_none (Nat.le_of_not_lt outside)] at read
  rcases checked : Queue.check build (position < list.length) with error | _
  · simp [checked, bind, Except.bind] at read
  · simp [checked, bind, Except.bind] at read

theorem read_inside {build : Build} {position : Nat} {Value : Type} {value : Value}
    {use : listType → Except Failure Value}
    (ran : operatorAt build list position >>= use = .ok value) : position < list.length := by
  rcases read : operatorAt build list position with error | found
  · simp [read, bind, Except.bind] at ran
  · exact operator_at_inside read

theorem insert_at_ok (build : Build) (input : listType) {position : Nat}
    (inside : position ≤ list.length) :
    insertAt build list input position = .ok (list.insertIdx position input) := by
  have checked := Queue.check_true build (decide_eq_true inside)
  rw [insertAt, checked]
  simp only [if_pos inside, bind, Except.bind, pure, Except.pure]

theorem remove_at_index_ok (build : Build) {position : Nat} (inside : position < list.length) :
    removeAtIndex build list position = .ok (list.eraseIdx position) := by
  have checked := Queue.check_true build (decide_eq_true inside)
  simp only [removeAtIndex, checked, bind, Except.bind, pure, Except.pure]

section Middle

variable (build : Build) (before : List listType) (here : listType) (after : List listType)

theorem operator_at_middle :
    operatorAt build (before ++ here :: after) before.length = .ok here := by
  have inside : before.length < (before ++ here :: after).length := by simp
  rw [operator_at_ok build inside]
  simp

theorem set_middle (other : listType) :
    (before ++ here :: after).set before.length other = before ++ other :: after := by
  simp

theorem insert_at_middle (input : listType) :
    insertAt build (before ++ after) input before.length = .ok (before ++ input :: after) := by
  rw [insert_at_ok build input (by simp)]
  congr 1
  induction before with
  | nil => simp
  | cons first rest ih => simpa using ih

theorem remove_middle :
    removeAtIndex build (before ++ here :: after) before.length = .ok (before ++ after) := by
  rw [remove_at_index_ok build (by simp)]
  congr 1
  induction before with
  | nil => rfl
  | cons first rest ih => simpa using ih

end Middle

end DataStructures.List
