import Rulebook.Matcher.Basic

/-!
Laws of composition. What is done to the values of the parts can be done to the value of the whole,
for no matcher looks at a value. Choice is associative, and so is reading in order where the values
are lists that are put together: a choice among the alternatives of a choice, or a run of parts
among the parts of a run, is the same as its own parts in its place.
-/

namespace Rulebook.Matcher

variable {α β γ δ : Type}

/-! ## Values -/

theorem map_map (f : α → β) (g : β → γ) (matcher : Matcher α) :
    map g (map f matcher) = map (fun value => g (f value)) matcher := by
  funext source pos
  cases found : matcher source pos <;> simp [map, found]

theorem map_firstOf (f : α → β) (alternatives : List (Matcher α)) :
    map f (firstOf alternatives) = firstOf (alternatives.map (map f)) := by
  funext source pos
  induction alternatives with
  | nil => rfl
  | cons first others ih =>
      cases found : first source pos with
      | none => simpa [map, firstOf, found] using ih
      | some result => simp [map, firstOf, found]

/-- The separators of a round are dropped, so their values may be anything. -/
theorem map_round (f : α → β) (g : γ → δ) (template : Matcher α) (separator : Matcher γ) :
    map Prod.snd (both (map g separator) (map f template)) =
      map f (map Prod.snd (both separator template)) := by
  funext source pos
  cases before : separator source pos with
  | none => simp [map, both, before]
  | some front => cases after : template source front.2 <;> simp [map, both, before, after]

theorem rounds_map (f : α → β) (round : Matcher α) (source : List Char) (attempts : Nat)
    (pos : Int) : rounds (map f round) source attempts pos =
      ((rounds round source attempts pos).1.map f, (rounds round source attempts pos).2) := by
  induction attempts generalizing pos with
  | zero => rfl
  | succ attempts ih =>
      cases found : round source pos with
      | none => simp [rounds, map, found]
      | some result =>
          by_cases stays : result.2 = pos
          · simp [rounds, map, found, stays]
          · simp [rounds, map, found, stays, ih]

theorem map_separated (f : α → β) (g : γ → δ) (template : Matcher α) (separator : Matcher γ) :
    separated (map f template) (map g separator) =
      map (List.map f) (separated template separator) := by
  funext source pos
  cases found : template source pos with
  | none => simp [separated, map, found]
  | some result =>
      have first : map f template source pos = some (f result.1, result.2) := by simp [map, found]
      have later := rounds_map f (map Prod.snd (both separator template)) source
        (source.length + 2) result.2
      simp only [separated, first, map_round, later]
      simp only [map, separated, found, Option.map_some, List.map_cons]

/-! ## Choice -/

theorem firstOf_append (left right : List (Matcher α)) (source : List Char) (pos : Int) :
    firstOf (left ++ right) source pos =
      (firstOf left source pos).or (firstOf right source pos) := by
  induction left with
  | nil => rfl
  | cons first others ih => cases found : first source pos <;> simp [firstOf, found, ih]

theorem firstOf_splice (front inner back : List (Matcher α)) :
    firstOf (front ++ firstOf inner :: back) = firstOf (front ++ inner ++ back) := by
  funext source pos
  have opened : firstOf (firstOf inner :: back) source pos =
      firstOf (inner ++ back) source pos := by
    rw [firstOf_append]
    cases found : firstOf inner source pos <;> simp [firstOf, found]
  rw [List.append_assoc, firstOf_append front, firstOf_append front, opened]

/-! ## Lists put together -/

def nothing : Matcher (List α) := fun _ pos => some ([], pos)

def joined (left right : Matcher (List α)) : Matcher (List α) :=
  map (fun (front, back) => front ++ back) (both left right)

def concat : List (Matcher (List α)) → Matcher (List α)
  | [] => nothing
  | first :: others => joined first (concat others)

theorem nothing_joined (matcher : Matcher (List α)) : joined nothing matcher = matcher := by
  funext source pos
  cases found : matcher source pos <;> simp [joined, nothing, map, both, found]

theorem joined_assoc (first second third : Matcher (List α)) :
    joined (joined first second) third = joined first (joined second third) := by
  funext source pos
  cases left : first source pos with
  | none => simp [joined, map, both, left]
  | some front =>
      cases middle : second source front.2 with
      | none => simp [joined, map, both, left, middle]
      | some inner =>
          cases right : third source inner.2 <;> simp [joined, map, both, left, middle, right]

theorem concat_append (left right : List (Matcher (List α))) :
    concat (left ++ right) = joined (concat left) (concat right) := by
  induction left with
  | nil => rw [List.nil_append, concat, nothing_joined]
  | cons first others ih => rw [List.cons_append, concat, concat, ih, joined_assoc]

theorem concat_splice (front inner back : List (Matcher (List α))) :
    concat (front ++ concat inner :: back) = concat (front ++ inner ++ back) := by
  rw [List.append_assoc, concat_append, concat_append, concat_append, concat]

theorem map_allOf (f : α → List β) (parts : List (Matcher α)) :
    map (List.flatMap f) (allOf parts) = concat (parts.map (map f)) := by
  induction parts with
  | nil => rfl
  | cons first others ih =>
      rw [List.map_cons, concat, ← ih]
      funext source pos
      cases found : first source pos with
      | none => simp [map, allOf, joined, both, found]
      | some result =>
          cases later : allOf others source result.2 <;>
            simp [map, allOf, joined, both, found, later]

end Rulebook.Matcher
