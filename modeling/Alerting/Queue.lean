/-!
# Queues

A queue takes values in at its end and gives them out at its front. The values at the end are kept
in reverse, so that taking in and giving out take constant time on the whole. `toList` shows what a
queue holds, and each operation says what it does to that list.
-/

namespace Alerting

structure Queue (A : Type) where
  front : List A
  /-- The values after those of the front, the latest first. -/
  back : List A
  size : Nat
  size_eq : size = front.length + back.length
  back_eq_nil : front = [] → back = []

namespace Queue

variable {A : Type}

def empty : Queue A := ⟨[], [], 0, rfl, fun _ => rfl⟩

def toList (queue : Queue A) : List A := queue.front ++ queue.back.reverse

/-- A queue of a front and a back, which becomes the front if there is none. -/
def ofParts (front back : List A) (size : Nat) (size_eq : size = front.length + back.length) :
    Queue A :=
  match front with
  | [] => ⟨back.reverse, [], size, by simp [size_eq], fun _ => rfl⟩
  | first :: rest => ⟨first :: rest, back, size, size_eq, nofun⟩

@[simp] theorem toList_empty : (empty : Queue A).toList = [] := rfl

@[simp] theorem toList_ofParts (front back : List A) (size : Nat)
    (size_eq : size = front.length + back.length) :
    (ofParts front back size size_eq).toList = front ++ back.reverse := by
  cases front <;> simp [ofParts, toList]

def push (queue : Queue A) (value : A) : Queue A :=
  ofParts queue.front (value :: queue.back) (queue.size + 1)
    (by simp [queue.size_eq, Nat.add_assoc])

def isEmpty (queue : Queue A) : Bool := queue.front.isEmpty

def head? (queue : Queue A) : Option A := queue.front.head?

def tail (queue : Queue A) : Queue A :=
  match h : queue.front with
  | [] => queue
  | _ :: rest => ofParts rest queue.back (queue.size - 1) (by simp +arith [queue.size_eq, h])

theorem length_toList (queue : Queue A) : queue.toList.length = queue.size := by
  simp [toList, queue.size_eq]

@[simp] theorem toList_push (queue : Queue A) (value : A) :
    (queue.push value).toList = queue.toList ++ [value] := by
  rw [push, toList_ofParts]
  simp [toList]

theorem isEmpty_toList (queue : Queue A) : queue.toList.isEmpty = queue.isEmpty := by
  have := queue.back_eq_nil
  cases h : queue.front <;> simp_all [isEmpty, toList]

theorem head?_toList (queue : Queue A) : queue.toList.head? = queue.head? := by
  have := queue.back_eq_nil
  cases h : queue.front <;> simp_all [head?, toList]

@[simp] theorem toList_tail (queue : Queue A) : queue.tail.toList = queue.toList.tail := by
  have := queue.back_eq_nil
  unfold tail
  split
  · simp_all [toList]
  · next h => rw [toList_ofParts]; simp [toList, h]

theorem size_tail (queue : Queue A) : queue.tail.size = queue.size - 1 := by
  simp [← length_toList]

theorem size_ne_zero_of_head? {queue : Queue A} {first : A} (h : queue.head? = some first) :
    queue.size ≠ 0 := by
  intro empty
  have := head?_toList queue
  simp_all [← length_toList]

def drop : Nat → Queue A → Queue A
  | 0, queue => queue
  | n + 1, queue => queue.tail.drop n

def dropWhile (p : A → Bool) (queue : Queue A) : Queue A :=
  match h : queue.head? with
  | some first =>
      have := size_ne_zero_of_head? h
      if p first then queue.tail.dropWhile p else queue
  | none => queue
termination_by queue.size
decreasing_by rw [size_tail]; omega

@[simp] theorem toList_drop (n : Nat) (queue : Queue A) :
    (queue.drop n).toList = queue.toList.drop n := by
  induction n generalizing queue with
  | zero => rfl
  | succ n ih => simp [drop, ih]

@[simp] theorem toList_dropWhile (p : A → Bool) (queue : Queue A) :
    (queue.dropWhile p).toList = queue.toList.dropWhile p := by
  fun_induction dropWhile p queue with
  | case1 queue first h _ holds ih =>
      rw [ih, toList_tail]
      rw [← head?_toList] at h
      cases list : queue.toList <;> simp_all
  | case2 queue first h _ fails =>
      rw [← head?_toList] at h
      cases list : queue.toList <;> simp_all
  | case3 queue h =>
      rw [← head?_toList] at h
      simp_all

end Queue

end Alerting
