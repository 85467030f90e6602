/-
Module: StateTree.Proofs.Binding
Purpose: Binding and matching are inverse. A path is what a pattern becomes with identifiers in the
  place of its parameters exactly when the path has these identifiers at the parameters. That the
  three read segments and identifiers at paces of their own is settled once, by a relation on which
  each of them is followed.
-/
import StateTree.Proofs.Resolution
import StateTree.Site.Reference

namespace StateTree

namespace Path

variable {pattern path : Path} {segments whole : List Segment} {ids : List Identifier}

theorem matchesSegments_nil_iff : matchesSegments segments [] = true ↔ segments = [] := by
  cases segments <;> simp [matchesSegments]

theorem matchesSegments_cons_iff {theirs : Segment} :
    matchesSegments segments (theirs :: whole) = true ↔ ∃ segment rest, segments = segment :: rest ∧
      (theirs.isParameter || segment == theirs) = true ∧ matchesSegments rest whole = true := by
  cases segments with
  | nil => simp [matchesSegments]
  | cons segment rest =>
      rw [matchesSegments, Bool.and_eq_true]
      constructor
      · exact fun suits => ⟨segment, rest, rfl, suits⟩
      · rintro ⟨mine, more, same, suits⟩
        cases same
        exact suits

/-- Segments are those of a pattern with these identifiers at its parameters, from the left. -/
inductive Fills : List Identifier → List Segment → List Segment → Prop where
  | done : Fills [] [] []
  | name {text : String} {ids : List Identifier} {segments whole : List Segment}
      (rest : Fills ids segments whole) : Fills ids (.name text :: segments) (.name text :: whole)
  | parameter {label : String} {id : Identifier} {ids : List Identifier}
      {segments whole : List Segment} (rest : Fills ids segments whole) :
      Fills (id :: ids) (.entry id :: segments) (.parameter label :: whole)

namespace Fills

/-- There is an identifier for each parameter. -/
theorem length_ids (fills : Fills ids segments whole) :
    ids.length = whole.countP Segment.isParameter := by
  induction fills with
  | done => rfl
  | name rest ih => simpa [List.countP_cons, Segment.isParameter] using ih
  | parameter rest ih => simpa [List.countP_cons, Segment.isParameter] using ih

/-- There is a segment for each of the pattern's. -/
theorem length_eq (fills : Fills ids segments whole) : segments.length = whole.length := by
  induction fills with
  | done => rfl
  | name rest ih => exact congrArg Nat.succ ih
  | parameter rest ih => exact congrArg Nat.succ ih

theorem isEmpty_eq (fills : Fills ids segments whole) : segments.isEmpty = whole.isEmpty := by
  cases fills <;> rfl

/-- No parameter is left. -/
theorem named (fills : Fills ids segments whole) :
    ∀ segment ∈ segments, segment.isParameter = false := by
  induction fills with
  | done => exact nofun
  | name rest ih => exact List.forall_mem_cons.mpr ⟨rfl, ih⟩
  | parameter rest ih => exact List.forall_mem_cons.mpr ⟨rfl, ih⟩

/-- The segments match the pattern. -/
theorem matches_whole (fills : Fills ids segments whole) :
    matchesSegments segments whole = true := by
  induction fills with
  | done => rfl
  | name rest ih => simp [matchesSegments, ih]
  | parameter rest ih => simp [matchesSegments, Segment.isParameter, ih]

/-- The identifiers are read back at the parameters. -/
theorem valuesAt_eq (fills : Fills ids segments whole) :
    valuesAt segments whole = some ids := by
  induction fills with
  | done => rfl
  | name rest ih => simpa [valuesAt] using ih
  | parameter rest ih =>
      simp [valuesAt, Segment.name?, Segment.entry, Identifier.ofString?_text, ih]

/-- An entry that matches a segment stands in its place. -/
theorem exists_entry {theirs : Segment} {id : Identifier}
    (first : (theirs.isParameter || Segment.entry id == theirs) = true)
    (fills : ∃ ids, Fills ids segments whole) :
    ∃ ids, Fills ids (.entry id :: segments) (theirs :: whole) := by
  obtain ⟨ids, fills⟩ := fills
  cases theirs with
  | parameter label => exact ⟨id :: ids, .parameter fills⟩
  | name text =>
      have same : Segment.entry id = .name text := by simpa [Segment.isParameter] using first
      rw [same]
      exact ⟨ids, .name fills⟩

end Fills

/-- What a pattern is bound to has as many identifiers as it has parameters in their place. By
induction on the pattern, for the identifiers that are left at each of its segments. -/
theorem fills_iff_bindSegments :
    Fills ids segments whole ↔
      ids.length = whole.countP Segment.isParameter ∧ bindSegments whole ids = segments := by
  constructor
  · intro fills
    refine ⟨fills.length_ids, ?_⟩
    induction fills with
    | done => rfl
    | name rest ih => exact congrArg _ ih
    | parameter rest ih => exact congrArg _ ih
  · rintro ⟨full, rfl⟩
    induction whole generalizing ids with
    | nil =>
        obtain rfl := List.eq_nil_of_length_eq_zero full
        exact .done
    | cons segment rest ih =>
        cases segment with
        | name text =>
            exact .name (ih (by simpa [List.countP_cons, Segment.isParameter] using full))
        | parameter label =>
            cases ids with
            | nil => simp [List.countP_cons, Segment.isParameter] at full
            | cons id ids =>
                exact .parameter
                  (ih (by simpa [List.countP_cons, Segment.isParameter] using full))

/-- Segments that match a pattern and name entries at its parameters are bound so. By induction on
the pattern: a name has to stand for itself, and at a parameter the first identifier read is that of
the segment. -/
theorem fills_of_valuesAt (suits : matchesSegments segments whole = true)
    (values : valuesAt segments whole = some ids) : Fills ids segments whole := by
  induction whole generalizing segments ids with
  | nil =>
      cases segments with
      | nil =>
          cases values
          exact .done
      | cons segment segments => cases suits
  | cons theirs whole ih =>
      cases segments with
      | nil => cases suits
      | cons mine segments =>
          rw [matchesSegments, Bool.and_eq_true] at suits
          obtain ⟨first, suits⟩ := suits
          cases theirs with
          | name text =>
              obtain rfl : mine = .name text := by simpa [Segment.isParameter] using first
              exact .name (ih suits values)
          | parameter label =>
              simp only [valuesAt, Option.bind_eq_bind, Option.bind_eq_some_iff, Option.pure_def,
                Option.some.injEq] at values
              obtain ⟨id, ⟨text, here, read⟩, more, values, rfl⟩ := values
              cases mine with
              | parameter other => cases here
              | name other =>
                  cases here
                  obtain rfl := Identifier.ofString?_eq_some_iff.mp read
                  exact .parameter (ih suits values)

/-- Binding succeeds with the paths that are filled so. -/
theorem bind_eq_ok_iff_fills :
    pattern.bind ids = .ok path ↔ Fills ids path.segments pattern.segments := by
  obtain ⟨segments⟩ := path
  rw [fills_iff_bindSegments, bind, bind?]
  by_cases full : ids.length = pattern.parameterCount
  · simp [full, parameterCount]
  · have short : ids.length ≠ pattern.segments.countP Segment.isParameter := full
    simp [full, short]

/-- The identifiers of a path are those it is filled with. -/
theorem parameterValues?_eq_some_iff_fills :
    path.parameterValues? pattern = some ids ↔ Fills ids path.segments pattern.segments := by
  constructor
  · intro values
    unfold parameterValues? at values
    split at values
    · rename_i suits
      exact fills_of_valuesAt suits values
    · cases values
  · intro fills
    rw [parameterValues?, matchesPattern, if_pos fills.matches_whole]
    exact fills.valuesAt_eq

/-- Binding a pattern and reading the identifiers of a path at its parameters are inverse: either
finds what the other one starts from. -/
theorem parameterValues?_eq_some_iff_bind :
    path.parameterValues? pattern = some ids ↔ pattern.bind ids = .ok path :=
  parameterValues?_eq_some_iff_fills.trans bind_eq_ok_iff_fills.symm

theorem isParameterized_of_fills (fills : Fills ids path.segments pattern.segments) :
    path.isParameterized = false :=
  isParameterized_eq_false_iff.mpr fills.named

/-- With an identifier for each parameter a pattern is bound to an instance of its length, without
parameters, which gives the identifiers back. Whatever path gives identifiers at the parameters of a
pattern gives one for each, has no parameters of its own, and is what the pattern is bound to with
them. Any other number of identifiers is refused. -/
theorem bind_inverse (pattern : Path) (ids : List Identifier) :
    (ids.length = pattern.parameterCount → ∃ path, pattern.bind ids = .ok path ∧
      path.isParameterized = false ∧ path.length = pattern.length ∧
        path.matchesPattern pattern = true ∧ path.parameterValues? pattern = some ids) ∧
    (∀ path : Path, path.parameterValues? pattern = some ids →
      ids.length = pattern.parameterCount ∧ path.isParameterized = false ∧
        pattern.bind ids = .ok path) ∧
    (ids.length ≠ pattern.parameterCount →
      pattern.bind ids = .error (.parameterCount pattern pattern.parameterCount ids.length)) := by
  refine ⟨fun full => ?_, fun path values => ?_, fun other => ?_⟩
  · have fills : Fills ids (bindSegments pattern.segments ids) pattern.segments :=
      fills_iff_bindSegments.mpr ⟨full, rfl⟩
    refine ⟨⟨bindSegments pattern.segments ids⟩, bind_eq_ok_iff_fills.mpr fills, ?_, ?_, ?_, ?_⟩
    · exact isParameterized_of_fills fills
    · exact fills.length_eq
    · exact fills.matches_whole
    · exact parameterValues?_eq_some_iff_fills.mpr fills
  · have fills := parameterValues?_eq_some_iff_fills.mp values
    exact ⟨fills.length_ids, isParameterized_of_fills fills, bind_eq_ok_iff_fills.mpr fills⟩
  · simp [bind, bind?, other]

end Path

/-! ### References to a pattern -/

namespace Reference

variable {schema : Schema} {site : Nat} {reading : Reading} {pattern path : Path}
  {template : Reference}

/-- A reference is formed with the accessor of its path, whose target its kind accepts. -/
theorem new_cases (formed : new site schema reading pattern = .ok template) :
    schema.resolve pattern = .ok template.accessor ∧ template.site = site ∧
      template.schema = schema ∧ template.reading = reading ∧
      reading.kind.accepts template.accessor.target = true := by
  obtain ⟨accessor, resolved, same⟩ := bind_eq_ok_iff.mp formed
  obtain ⟨resolved, accepts⟩ := Schema.resolveAs_eq_ok_iff.mp resolved
  cases same
  exact ⟨resolved, rfl, rfl, rfl, accepts⟩

/-- A reference is bound by a path that its own path is filled to, if it leads to the same type. -/
theorem boundBy_eq_ok (formed : new site schema reading pattern = .ok template)
    {ids : List Identifier} (fills : Path.Fills ids path.segments pattern.segments)
    {own : Accessor} (resolved : schema.resolve path = .ok own)
    (same : own.target = template.accessor.target) :
    template.boundBy path = .ok { template with accessor := own } := by
  obtain ⟨found, rfl, rfl, rfl, accepted⟩ := new_cases formed
  obtain rfl : template.path = pattern := Schema.path_of_resolve found
  have values := Path.parameterValues?_eq_some_iff_fills.mpr fills
  have bound := Path.bind_eq_ok_iff_fills.mpr fills
  have again : template.schema.resolveAs path template.reading.kind = .ok own :=
    Schema.resolveAs_eq_ok_iff.mpr ⟨resolved, same ▸ accepted⟩
  simp [boundBy, values, boundTo, bound, atPath, new, again]

end Reference

/-! ### In the sample -/

namespace Sample

/-- A pattern with a label twice, a name that is equal to it, and an empty name. -/
def crossing : Path :=
  ⟨[.parameter "a", .name "a", .name "", .parameter "a"]⟩

/-- Two identifiers are bound and read back; a single one is too few. -/
theorem crossing_bind_inverse :
    [b, a].length = crossing.parameterCount ∧ [a].length ≠ crossing.parameterCount ∧
      (∃ path, crossing.bind [b, a] = .ok path ∧ path.isParameterized = false ∧
        path.length = crossing.length ∧ path.matchesPattern crossing = true ∧
          path.parameterValues? crossing = some [b, a]) ∧
      crossing.bind [a] = .error (.parameterCount crossing 2 1) ∧
      (⟨[.name "b", .name "a", .name "", .name "a"]⟩ : Path).parameterValues? crossing =
        some [b, a] ∧
      crossing.bind [b, a] = .ok ⟨[.name "b", .name "a", .name "", .name "a"]⟩ := by
  have values : (⟨[.name "b", .name "a", .name "", .name "a"]⟩ : Path).parameterValues? crossing =
      some [b, a] := by decide
  refine ⟨rfl, by decide, ?_, ?_, values, ?_⟩
  · exact (Path.bind_inverse crossing [b, a]).1 rfl
  · exact (Path.bind_inverse crossing [a]).2.2 (by decide)
  · exact ((Path.bind_inverse crossing [b, a]).2.1 _ values).2.2

end Sample

end StateTree
