import Mathlib

/-!
# Checked slices

Reading and overwriting a range of a list with the bounds checks of a checked slice: the start
must not lie past the end, and the length must not exceed what is left. `getSlice?` reads and
`setSlice` overwrites.
-/

namespace List

variable {α : Type*} {l new : List α} {start len i : Nat}

/-- The elements of the range, when it lies inside the list. -/
def getSlice? (l : List α) (start len : Nat) : Option (List α) :=
  if start + len ≤ l.length then some ((l.drop start).take len) else none

/-- The list with its elements from `start` on overwritten by `new`. -/
def setSlice (l : List α) (start : Nat) (new : List α) : List α :=
  l.take start ++ new ++ l.drop (start + new.length)

/-- A slice inside the list. -/
lemma getSlice?_eq_some (h : start + len ≤ l.length) :
    l.getSlice? start len = some ((l.drop start).take len) :=
  if_pos h

/-- A slice beyond the end. -/
lemma getSlice?_eq_none (h : l.length < start + len) : l.getSlice? start len = none :=
  if_neg (Nat.not_le.mpr h)

/-- There is a slice exactly where the list reaches. -/
@[simp] lemma getSlice?_isSome : (l.getSlice? start len).isSome ↔ start + len ≤ l.length := by
  unfold getSlice?
  split <;> simp [*]

/-- A slice that was read has the length that was asked for. -/
lemma length_of_getSlice? (h : l.getSlice? start len = some new) : new.length = len := by
  unfold getSlice? at h
  split at h
  · cases h
    simp only [length_take, length_drop]
    omega
  · cases h

/-- Overwriting a slice keeps the length. -/
lemma length_setSlice (h : start + new.length ≤ l.length) :
    (l.setSlice start new).length = l.length := by
  simp only [setSlice, length_append, length_take, length_drop]
  omega

/-- A slice that was read holds nothing but elements of the list. -/
lemma mem_of_getSlice? {a : α} (h : l.getSlice? start len = some new) (mem : a ∈ new) : a ∈ l := by
  unfold getSlice? at h
  split at h
  · cases h
    exact mem_of_mem_drop (mem_of_mem_take mem)
  · cases h

/-- What an overwritten list holds, it held before or is new. -/
lemma mem_setSlice {a : α} (mem : a ∈ l.setSlice start new) : a ∈ l ∨ a ∈ new := by
  rcases mem_append.mp mem with mem | mem
  · rcases mem_append.mp mem with mem | mem
    · exact .inl (mem_of_mem_take mem)
    · exact .inr mem
  · exact .inl (mem_of_mem_drop mem)

/-- What an overwritten list holds at each index. -/
lemma getElem?_setSlice (h : start + new.length ≤ l.length) :
    (l.setSlice start new)[i]? =
      if start ≤ i ∧ i < start + new.length then new[i - start]? else l[i]? := by
  have hs : (l.take start).length = start := by
    rw [length_take]
    omega
  unfold setSlice
  split
  next hi =>
    rw [append_assoc, getElem?_append_right (by omega), hs, getElem?_append_left (by omega)]
  next hi =>
    rcases Nat.lt_or_ge i start with lo | hi'
    · rw [append_assoc, getElem?_append_left (by omega), getElem?_take_of_lt lo]
    · rw [getElem?_append_right (by rw [length_append, hs]; omega), length_append, hs,
        getElem?_drop]
      congr 1
      omega

/-- What a read slice holds at each index. -/
lemma getElem?_of_getSlice? (h : l.getSlice? start len = some new) (hi : i < len) :
    new[i]? = l[start + i]? := by
  unfold getSlice? at h
  split at h
  · cases h
    rw [getElem?_take_of_lt hi, getElem?_drop]
  · cases h

/-- Where the part of `l.flatMap f` that comes from the element at `i` begins. -/
def flatStart {β : Type*} (f : β → List α) (l : List β) (i : Nat) : Nat :=
  ((l.take i).flatMap f).length

/-- A concatenation at one of its elements. -/
lemma flatMap_split {β : Type*} {f : β → List α} {l : List β} (hi : i < l.length) :
    l.flatMap f = (l.take i).flatMap f ++ (f l[i] ++ (l.drop (i + 1)).flatMap f) := by
  have e : l = l.take i ++ l[i] :: l.drop (i + 1) := by
    rw [← List.drop_eq_getElem_cons hi, List.take_append_drop]
  calc l.flatMap f
    _ = (l.take i ++ l[i] :: l.drop (i + 1)).flatMap f := congrArg (·.flatMap f) e
    _ = _ := by simp only [List.flatMap_append, List.flatMap_cons]

/-- A range of the part of a concatenation that comes from one element. -/
lemma take_drop_flatMap {β : Type*} {f : β → List α} {l : List β} {b : β} (hb : l[i]? = some b)
    (h : start + len ≤ (f b).length) :
    ((l.flatMap f).drop (flatStart f l i + start)).take len = ((f b).drop start).take len := by
  obtain ⟨hi, rfl⟩ := List.getElem?_eq_some_iff.mp hb
  rw [flatMap_split hi, flatStart, ← List.drop_drop, List.drop_left, List.drop_append_of_le_length (by omega),
    List.take_append_of_le_length (by rw [List.length_drop]; omega)]

/-- The part that comes from one element lies inside the concatenation. -/
lemma flatStart_add_le {β : Type*} {f : β → List α} {l : List β} {b : β} (hb : l[i]? = some b) :
    flatStart f l i + (f b).length ≤ (l.flatMap f).length := by
  obtain ⟨hi, rfl⟩ := List.getElem?_eq_some_iff.mp hb
  rw [flatMap_split hi, flatStart, List.length_append, List.length_append]
  omega

/-- Overwriting and then mapping is mapping and then overwriting. -/
lemma map_setSlice {β : Type*} (f : α → β) :
    (l.setSlice start new).map f = (l.map f).setSlice start (new.map f) := by
  simp [setSlice, map_take, map_drop]

/-- The last part of a prefix, found in the list. -/
lemma take_drop_of_prefix {pre last : List α} (h : pre ++ last <+: l) :
    (l.drop pre.length).take last.length = last := by
  obtain ⟨tail, rfl⟩ := h
  rw [append_assoc, drop_left, take_left]

/-- Two neighbouring ranges are overwritten as one. -/
lemma setSlice_setSlice {tail : List α} (h : start + new.length + tail.length ≤ l.length) :
    (l.setSlice (start + new.length) tail).setSlice start new = l.setSlice start (new ++ tail) := by
  have first : (l.take (start + new.length)).length = start + new.length := by
    rw [length_take]
    omega
  have outer : (l.setSlice (start + new.length) tail).take start = l.take start := by
    rw [setSlice, append_assoc, take_append_of_le_length (by omega), take_take,
      Nat.min_eq_left (by omega)]
  have rest : (l.setSlice (start + new.length) tail).drop (start + new.length) =
      tail ++ l.drop (start + new.length + tail.length) := by
    rw [setSlice, append_assoc, drop_append_of_le_length (by omega), drop_eq_nil_of_le (by omega),
      nil_append]
  rw [setSlice, outer, rest, setSlice, length_append, Nat.add_assoc]
  simp only [append_assoc]

/-- Overwriting nothing. -/
@[simp] lemma setSlice_nil : l.setSlice start [] = l := by
  simp [setSlice]

end List
