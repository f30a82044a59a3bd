import TerraDeps.Proofs.ModulePath

/-!
# Paths in stages, and from further down

The steps of two paths that are joined by a slash are the steps of the one and then those of the
other, and the text of a directory stands for the steps down to it. So a relative path may be
followed in stages, the directory in between being known by its text only (`resolve_join`). And the
steps that lead somewhere from the root lead to the same place below any other directory, since they
never touch what lies above their start (`resolve_below`); from far enough down even those lead
somewhere that escape from the root.
-/

set_option autoImplicit false

namespace TerraDeps.ModulePath

open Text

variable {anchor relative first second : String} {base p q : ModulePath} {failure : EscapesRoot}

section Steps

variable {stack found : List Segment} {steps : List PathStep}

/-- Steps in a row are followed one part after the other. -/
theorem follow?_append (stack : List Segment) (steps more : List PathStep) :
    follow? stack (steps ++ more) = (follow? stack steps).bind fun found => follow? found more := by
  fun_induction follow? stack steps with
  | case1 stack => rfl
  | case2 steps => rfl
  | case3 segment stack steps ih => exact ih
  | case4 stack segment steps ih => exact ih

/-- Steps that can be followed leave alone what lies above their start. -/
theorem follow?_stack_append (h : follow? stack steps = some found) (above : List Segment) :
    follow? (stack ++ above) steps = some (found ++ above) := by
  fun_induction follow? stack steps with
  | case1 stack => rw [follow?, Option.some.inj h]
  | case2 steps => contradiction
  | case3 segment stack steps ih => exact ih h
  | case4 stack segment steps ih =>
    rw [follow?]
    exact ih h

/-- The steps of two paths with a slash between them are those of the one and then those of the
other. -/
theorem pathSteps_join (path rest : String) :
    pathSteps (path ++ "/" ++ rest) = pathSteps path ++ pathSteps rest := by
  have joined : (path ++ "/" ++ rest).toList = path.toList ++ '/' :: rest.toList := by simp
  rw [pathSteps, joined, pieces_append_cons (by decide), List.filterMap_append]
  rfl

/-- Behind the text of a directory, steps are followed from that directory. -/
theorem follow?_pathSteps_text (p : ModulePath) (steps : List PathStep) :
    follow? [] (pathSteps p.text ++ steps) = follow? p.segments.reverse steps := by
  rw [follow?_append, pathSteps_text, follow?_map_down, List.append_nil, Option.bind_some]

end Steps

section Resolving

/-- A path resolves to the directory where the steps of its anchor and its own lead. -/
theorem resolve_eq_ok_iff : resolve anchor relative = .ok p ↔
    follow? [] (pathSteps anchor ++ pathSteps relative) = some p.segments.reverse := by
  unfold resolve
  cases follow? [] (pathSteps anchor ++ pathSteps relative) with
  | none => exact ⟨fun h => by contradiction, fun h => by contradiction⟩
  | some stack =>
    obtain ⟨segments⟩ := p
    simp only [Except.ok.injEq, Option.some.injEq, mk.injEq, List.reverse_eq_iff]

/-- A path that leads nowhere is told as it was given. -/
theorem resolve_eq_error_iff : resolve anchor relative = .error failure ↔
    failure = ⟨anchor, relative⟩ ∧ ∀ p, resolve anchor relative ≠ .ok p := by
  unfold resolve
  cases follow? [] (pathSteps anchor ++ pathSteps relative) with
  | none => simp [eq_comm]
  | some stack => simp

/-- From the text of a directory, a path resolves to where its steps lead from the directory. -/
theorem resolve_text_eq_ok_iff : resolve q.text relative = .ok p ↔
    follow? q.segments.reverse (pathSteps relative) = some p.segments.reverse := by
  rw [resolve_eq_ok_iff, follow?_pathSteps_text]

/-- Two paths with a slash between them resolve to where the second resolves from where the first
does. -/
theorem resolve_join_eq_ok_iff : resolve anchor (first ++ "/" ++ second) = .ok p ↔
    ∃ q, resolve anchor first = .ok q ∧ resolve q.text second = .ok p := by
  rw [resolve_eq_ok_iff, pathSteps_join, ← List.append_assoc, follow?_append,
    Option.bind_eq_some_iff]
  constructor
  · rintro ⟨stack, start, rest⟩
    rw [← stack.reverse_reverse] at start rest
    exact ⟨⟨stack.reverse⟩, resolve_eq_ok_iff.mpr start, resolve_text_eq_ok_iff.mpr rest⟩
  · rintro ⟨q, start, rest⟩
    exact ⟨_, resolve_eq_ok_iff.mp start, resolve_text_eq_ok_iff.mp rest⟩

end Resolving

/-- A relative path in two parts leads where its second part leads from the directory that the first
leads to, and escapes exactly when one of the two does; what comes later in the path does not make
up for an escape. -/
theorem resolve_join (anchor first second : String) :
    (∀ p, resolve anchor (first ++ "/" ++ second) = .ok p ↔
      ∃ q, resolve anchor first = .ok q ∧ resolve q.text second = .ok p) ∧
    (∀ failure, resolve anchor (first ++ "/" ++ second) = .error failure ↔
      failure = ⟨anchor, first ++ "/" ++ second⟩ ∧
      ((∃ early, resolve anchor first = .error early) ∨
        ∃ q late, resolve anchor first = .ok q ∧ resolve q.text second = .error late)) := by
  refine ⟨fun p => resolve_join_eq_ok_iff, fun failure => ?_⟩
  rw [resolve_eq_error_iff]
  refine and_congr_right fun _ => ?_
  simp only [ne_eq, resolve_join_eq_ok_iff]
  cases resolve anchor first with
  | error early => simp
  | ok q => cases rest : resolve q.text second <;> simp [rest]

section Below

/-- What leads somewhere leads to the same place below another directory. -/
theorem resolve_join_anchor (h : resolve anchor relative = .ok p) :
    resolve (base.text ++ "/" ++ anchor) relative = .ok ⟨base.segments ++ p.segments⟩ := by
  have below := follow?_stack_append (resolve_eq_ok_iff.mp h) base.segments.reverse
  rw [resolve_eq_ok_iff, pathSteps_join, List.append_assoc, follow?_pathSteps_text,
    List.reverse_append]
  exact below

/-- Behind names of directories a stretch climbs out that has more `..` than names and those. -/
theorem climbsOut_append_iff {down names : List String} (h : ∀ name ∈ down, name ≠ "..") :
    ClimbsOut (down ++ names) ↔
      ∃ start, start <+: names ∧ start.countP (· ≠ "..") + down.length < start.count ".." := by
  have noParent : down.count ".." = 0 := List.count_eq_zero.mpr fun inside => h ".." inside rfl
  have allNames : down.countP (· ≠ "..") = down.length := by
    rw [List.countP_eq_length]
    simpa using h
  have counted (start : List String) : Climbs (down ++ start) ↔
      start.countP (· ≠ "..") + down.length < start.count ".." := by
    rw [Climbs, List.countP_append, List.count_append, noParent, allNames]
    omega
  constructor
  · rintro ⟨start, isPrefix, climbs⟩
    obtain within | ⟨more, after, rfl⟩ := prefix_append_cases isPrefix
    · have noClimb := not_climbs_of_forall_ne fun name isMember => h name (within.mem isMember)
      exact absurd climbs noClimb
    · exact ⟨more, after, (counted more).mp climbs⟩
  · rintro ⟨start, isPrefix, climbs⟩
    refine ⟨down ++ start, ?_, (counted start).mpr climbs⟩
    exact (List.prefix_append_right_inj down).mpr isPrefix

/-- From below another directory a path leads somewhere exactly when that directory is as deep as
the path climbs at most. -/
theorem exists_resolve_join_anchor_iff :
    (∃ p, resolve (base.text ++ "/" ++ anchor) relative = .ok p) ↔
      ∀ start, start <+: namesOf anchor ++ namesOf relative →
        start.count ".." ≤ start.countP (· ≠ "..") + base.segments.length := by
  simp only [resolve_eq_ok_iff, pathSteps_join, List.append_assoc, follow?_pathSteps_text]
  have followed := follow?_eq base.segments.reverse (pathSteps anchor ++ pathSteps relative)
  have depth : (namesDown base.segments.reverse).length = base.segments.length := by
    simp [namesDown]
  rw [climbsOut_append_iff (ne_parent_of_mem_namesDown _), depth, List.map_append,
    map_name_pathSteps, map_name_pathSteps] at followed
  obtain ⟨⟨start, isPrefix, climbs⟩, fails⟩ | ⟨stays, stack, found, -⟩ := followed
  · refine iff_of_false ?_ fun deep => Nat.not_lt_of_le (deep start isPrefix) climbs
    rintro ⟨p, found⟩
    rw [fails] at found
    contradiction
  · refine iff_of_true ⟨⟨stack.reverse⟩, ?_⟩ fun start isPrefix => ?_
    · rw [found, List.reverse_reverse]
    · exact Nat.le_of_not_lt fun climbs => stays ⟨start, isPrefix, climbs⟩

end Below

/-- Below another directory a path that leads somewhere leads to the same place below that
directory, and only a path that escapes without the directory can escape below it. It does not
escape there exactly when no stretch at its start climbs further than the directory is deep. -/
theorem resolve_below (base : ModulePath) (anchor relative : String) :
    (∀ p, resolve anchor relative = .ok p →
      resolve (base.text ++ "/" ++ anchor) relative = .ok ⟨base.segments ++ p.segments⟩) ∧
    (∀ failure, resolve (base.text ++ "/" ++ anchor) relative = .error failure →
      resolve anchor relative = .error ⟨anchor, relative⟩) ∧
    ((∃ p, resolve (base.text ++ "/" ++ anchor) relative = .ok p) ↔
      ∀ start, start <+: namesOf anchor ++ namesOf relative →
        start.count ".." ≤ start.countP (· ≠ "..") + base.segments.length) := by
  refine ⟨fun p => resolve_join_anchor, fun failure fails => ?_, exists_resolve_join_anchor_iff⟩
  refine resolve_eq_error_iff.mpr ⟨rfl, fun p leads => ?_⟩
  rw [resolve_join_anchor leads] at fails
  contradiction

/-- A path that stays inside is moved along; one that escapes by a single step no longer does. -/
theorem resolve_below_one :
    let base : ModulePath := ⟨[⟨"x", by decide⟩]⟩
    let sibling : ModulePath := ⟨[⟨"b", by decide⟩]⟩
    resolve "a" "../b" = .ok sibling ∧
      resolve (base.text ++ "/" ++ "a") "../b" = .ok ⟨base.segments ++ sibling.segments⟩ ∧
      resolve "a" "../../b" = .error ⟨"a", "../../b"⟩ ∧
      ∃ p, resolve (base.text ++ "/" ++ "a") "../../b" = .ok p := by
  intro base sibling
  have leads : resolve "a" "../b" = .ok sibling := by decide
  have shallow : ∀ start ∈ (namesOf "a" ++ namesOf "../../b").inits,
      start.count ".." ≤ start.countP (· ≠ "..") + base.segments.length := by decide
  obtain ⟨moved, -, -⟩ := resolve_below base "a" "../b"
  obtain ⟨-, -, inside⟩ := resolve_below base "a" "../../b"
  refine ⟨leads, moved sibling leads, by decide, inside.mpr fun start isPrefix => ?_⟩
  exact shallow start ((List.mem_inits _ _).mpr isPrefix)

end TerraDeps.ModulePath
