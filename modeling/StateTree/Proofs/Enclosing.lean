/-
Module: StateTree.Proofs.Enclosing
Purpose: The paths above a path, and the nearest of them at which values of a kind belong. On its
  way to its target, resolving a path comes through what the paths above it resolve to. So each of
  them resolves, and going up from a reference ends at the first whose type the kind accepts, or
  above the root.
-/
import StateTree.Proofs.Binding
import StateTree.Proofs.Resolvability

namespace StateTree

namespace Schema

variable {schema : Schema} {path : Path} {accessor : Accessor} {kind : Kind} {bound count : Nat}

/-! ### The nearest path above -/

/-- Values of a kind belong where a path leads. -/
def Belongs (schema : Schema) (kind : Kind) (path : Path) : Prop :=
  ∃ accessor, schema.resolve path = .ok accessor ∧ kind.accepts accessor.target = true

theorem belongs_iff (resolved : schema.resolve path = .ok accessor) :
    schema.Belongs kind path ↔ kind.accepts accessor.target = true := by
  simp [Belongs, resolved]

instance decidableBelongs : Decidable (schema.Belongs kind path) :=
  match outcome : schema.resolve path with
  | .ok accessor => decidable_of_iff _ (belongs_iff outcome).symm
  | .error _ => isFalse fun ⟨_, resolved, _⟩ => by cases outcome.symm.trans resolved

/-- Of the paths above a path that are shorter than a bound, this is the longest at which values of
a kind belong. -/
structure Nearest (schema : Schema) (kind : Kind) (path : Path) (bound count : Nat) : Prop where
  short : count < bound
  belongs : schema.Belongs kind (path.take count)
  longest : ∀ longer, count < longer → longer < bound → ¬ schema.Belongs kind (path.take longer)

namespace Nearest

/-- There is one at most. -/
theorem unique {other : Nat} (nearest : schema.Nearest kind path bound count)
    (others : schema.Nearest kind path bound other) : count = other := by
  rcases Nat.lt_trichotomy count other with less | same | less
  · exact absurd others.belongs (nearest.longest other less others.short)
  · exact same
  · exact absurd nearest.belongs (others.longest count less nearest.short)

/-- Where the next longer path does not suit either, the nearest stays the nearest. -/
theorem succ (nearest : schema.Nearest kind path bound count)
    (unsuited : ¬ schema.Belongs kind (path.take bound)) :
    schema.Nearest kind path (bound + 1) count where
  short := Nat.lt_succ_of_lt nearest.short
  belongs := nearest.belongs
  longest longer more less := by
    rcases Nat.lt_succ_iff_lt_or_eq.mp less with less | rfl
    · exact nearest.longest longer more less
    · exact unsuited

end Nearest

end Schema

namespace Reference

variable {reference : Reference} {path : Path} {bound : Nat}

/-- Where each of the paths shorter than a bound resolves, the search ends at the nearest at which
the wanted values belong, or fails as they belong at none. By induction on the bound: the longest
path comes first. -/
theorem firstOfKind_cases (wanted : Reading)
    (resolves : ∀ count < bound, ∃ outer, reference.schema.resolve (path.take count) = .ok outer) :
    (∃ count found, reference.schema.Nearest wanted.kind path bound count ∧
      new reference.site reference.schema wanted (path.take count) = .ok found ∧
      reference.firstOfKind wanted ((List.range bound).map path.take).reverse = .ok found) ∨
    ((∀ count < bound, ¬ reference.schema.Belongs wanted.kind (path.take count)) ∧
      reference.firstOfKind wanted ((List.range bound).map path.take).reverse =
        .error (.noEnclosing reference.path wanted.kind)) := by
  induction bound with
  | zero => exact Or.inr ⟨nofun, rfl⟩
  | succ bound ih =>
      obtain ⟨outer, resolved⟩ := resolves bound (Nat.lt_succ_self bound)
      rw [List.range_succ, List.map_append, List.map_singleton, List.reverse_concat]
      cases suits : wanted.kind.accepts outer.target with
      | true =>
          have formed : new reference.site reference.schema wanted (path.take bound) =
              .ok ⟨reference.site, reference.schema, outer, wanted⟩ :=
            bind_eq_ok_iff.mpr ⟨outer, Schema.resolveAs_eq_ok_iff.mpr ⟨resolved, suits⟩, rfl⟩
          refine Or.inl ⟨bound, _, ⟨Nat.lt_succ_self bound, ⟨outer, resolved, suits⟩, ?_⟩, formed,
            ?_⟩
          · intro longer more less
            exact absurd (Nat.lt_succ_iff.mp less) (Nat.not_le_of_lt more)
          · simp [firstOfKind, resolved, Accessor.checkKind, suits]
      | false =>
          have unsuited : ¬ reference.schema.Belongs wanted.kind (path.take bound) := by
            simp [Schema.belongs_iff resolved, suits]
          have further (shorter : List Path) :
              reference.firstOfKind wanted (path.take bound :: shorter) =
                reference.firstOfKind wanted shorter := by
            simp [firstOfKind, resolved, Accessor.checkKind, suits]
          rw [further]
          rcases ih fun count less => resolves count (Nat.lt_succ_of_lt less) with
            ⟨count, found, nearest, formed, ends⟩ | ⟨none, ends⟩
          · exact Or.inl ⟨count, found, nearest.succ unsuited, formed, ends⟩
          · refine Or.inr ⟨fun count less => ?_, ends⟩
            rcases Nat.lt_succ_iff_lt_or_eq.mp less with less | rfl
            · exact none count less
            · exact unsuited

/-- The enclosing location of a reference is the nearest at which the wanted values belong. That
there is none is the only failure, since all paths above that of a reference resolve. -/
theorem enclosing_cases {site : Nat} {schema : Schema} {reading : Reading}
    (formed : new site schema reading path = .ok reference) (wanted : Reading) :
    (∃ count found, schema.Nearest wanted.kind path path.length count ∧
      new site schema wanted (path.take count) = .ok found ∧
      reference.enclosing wanted = .ok found) ∨
    ((∀ count < path.length, ¬ schema.Belongs wanted.kind (path.take count)) ∧
      reference.enclosing wanted = .error (.noEnclosing path wanted.kind)) := by
  obtain ⟨resolved, rfl, rfl, -, -⟩ := new_cases formed
  obtain rfl : reference.path = path := Schema.path_of_resolve resolved
  refine firstOfKind_cases wanted fun count _ => ?_
  obtain ⟨reached, found, -⟩ := Schema.resolve_take resolved count
  exact ⟨_, found⟩

end Reference

namespace Schema

/-- Each path above one that resolves resolves too: to what the resolution of the longer one, halted
there, has come to, and from where that takes the rest of its steps to its target. In a schema that
was built a path without empty names resolves or is malformed, if no domain, those inside the values
of side tables included, has an empty name or leads through itself. So the search for the enclosing
location of a reference never stops at a path that does not resolve: it ends with the reference to
the longest path above at which the wanted values belong, and there is none exactly if they belong
at no path above. -/
theorem enclosing_nearest {builder : SchemaBuilder} {schema : Schema}
    (built : builder.build = .ok schema) :
    (∀ path accessor, schema.resolve path = .ok accessor → ∀ count, ∃ reached,
      schema.resolve (path.take count) =
        .ok ⟨path.take count, accessor.steps.take count, reached⟩ ∧
      schema.resolveUpTo path count = .ok (accessor.steps.take count, reached) ∧
      schema.resolveFrom path count reached =
        .ok (accessor.steps.drop count, accessor.target)) ∧
    ((∀ domain ∈ schema.domains,
        .name "" ∉ domain.segments ∧ ¬ schema.LeadsThrough domain domain) →
      ∀ path : Path, .name "" ∉ path.segments →
        (∃ accessor, schema.resolve path = .ok accessor) ∨
          ∃ malformed fault, schema.resolve path = .error (.malformedPath malformed fault)) ∧
    ∀ site reading path reference, Reference.new site schema reading path = .ok reference →
      ∀ wanted : Reading,
        (∀ found, reference.enclosing wanted = .ok found ↔
          ∃ count, schema.Nearest wanted.kind path path.length count ∧
            Reference.new site schema wanted (path.take count) = .ok found) ∧
        ∀ error, reference.enclosing wanted = .error error ↔
          error = .noEnclosing path wanted.kind ∧
            ∀ count < path.length, ¬ schema.Belongs wanted.kind (path.take count) := by
  refine ⟨fun path accessor resolved => resolve_take resolved,
    fun straight path named => (resolve_onlyMalformed built straight named).cases_of, ?_⟩
  intro site reading path reference formed wanted
  rcases Reference.enclosing_cases formed wanted with
    ⟨count, nearer, nearest, here, ends⟩ | ⟨none, ends⟩
  · rw [ends]
    refine ⟨fun found => ⟨?_, ?_⟩, fun error => ⟨nofun, ?_⟩⟩
    · rintro ⟨⟩
      exact ⟨count, nearest, here⟩
    · rintro ⟨other, others, there⟩
      obtain rfl := nearest.unique others
      exact here.symm.trans there
    · rintro ⟨-, none⟩
      exact absurd nearest.belongs (none count nearest.short)
  · rw [ends]
    refine ⟨fun found => ⟨nofun, ?_⟩, fun error => ⟨?_, ?_⟩⟩
    · rintro ⟨count, nearest, -⟩
      exact absurd nearest.belongs (none count nearest.short)
    · rintro ⟨⟩
      exact ⟨rfl, none⟩
    · rintro ⟨rfl, -⟩
      rfl

end Schema

/-! ### In the sample with nested domains -/

namespace Sample

/-- The way to a number in the table of the item `a`. -/
def strayNumber : Accessor :=
  ⟨.ofNames ["notes", "a", "b"],
    strayNotes.steps ++ [.tableEntry (some b) (.ofNames ["title"]) [.field "title" false]], .int⟩

/-- The domains of the sample pass through fields only, and so ask for no other. -/
theorem stray_straight : ∀ domain ∈ straySchema.domains,
    .name "" ∉ domain.segments ∧ ¬ straySchema.LeadsThrough domain domain := by
  have asksNone (name : String) (domain : Path) : ¬ straySchema.Asks (.ofNames [name]) domain := by
    intro asks
    cases asks with
    | onward first bare rest => exact rest.ne_nil rfl
  have alone (name : String) (domain : Path) :
      ¬ straySchema.LeadsThrough (.ofNames [name]) domain := by
    intro leads
    obtain ⟨next, asks, -⟩ := Relation.TransGen.head'_iff.mp leads
    exact asksNone name next asks
  intro domain member
  have either : domain = .ofNames ["items"] ∨ domain = .ofNames ["title"] := by
    simpa [straySchema, Schema.domains, Schema.declarations, stray, item, FieldType.domains] using
      member
  rcases either with rfl | rfl
  · exact ⟨by decide, alone "items" _⟩
  · exact ⟨by decide, alone "title" _⟩

/-- Above a number in the table of an item is that table, which is the nearest one of numbers; there
is no text above it. Below the title there is nothing. -/
theorem stray_enclosing :
    (((SchemaBuilder.new "Root").define stray).define item).build = .ok straySchema ∧
      straySchema.resolve (strayNumber.path.take 2) = .ok strayNotes ∧
      straySchema.resolveUpTo strayNumber.path 2 = .ok (strayNotes.steps, strayNotes.target) ∧
      (∃ malformed fault, straySchema.resolve (.ofNames ["title", "a"]) =
        .error (.malformedPath malformed fault)) ∧
      ∃ reference, Reference.new 0 straySchema View.int.reading strayNumber.path = .ok reference ∧
        reference.enclosing (View.sideTable View.int).reading =
          .ok ⟨0, straySchema, strayNotes, (View.sideTable View.int).reading⟩ ∧
        reference.enclosing View.str.reading = .error (.noEnclosing strayNumber.path .str) := by
  have resolved : straySchema.resolve strayNumber.path = .ok strayNumber := rfl
  have formed : Reference.new 0 straySchema View.int.reading strayNumber.path =
      .ok ⟨0, straySchema, strayNumber, View.int.reading⟩ := rfl
  obtain ⟨passes, only, encloses⟩ := Schema.enclosing_nearest stray_built
  obtain ⟨reached, found, halted, -⟩ := passes _ _ resolved 2
  obtain rfl : strayNotes.target = reached := by
    cases found
    rfl
  refine ⟨stray_built, found, halted, ?_, _, formed, ?_, ?_⟩
  · refine (only stray_straight (.ofNames ["title", "a"]) (by decide)).resolve_left ?_
    rintro ⟨accessor, found⟩
    cases found
  · refine ((encloses _ _ _ _ formed _).1 _).mpr ⟨2, ⟨by decide, ?_, ?_⟩, rfl⟩
    · decide +kernel
    · intro longer more less
      exact absurd (Nat.lt_succ_iff.mp less) (Nat.not_le_of_lt more)
  · exact ((encloses _ _ _ _ formed _).2 _).mpr ⟨rfl, by decide +kernel⟩

end Sample

end StateTree
