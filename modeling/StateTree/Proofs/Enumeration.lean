/-
Module: StateTree.Proofs.Enumeration
Purpose: What a path with parameters stands for in a tree. The locations that are enumerated are the
  instances whose every segment names something stored, dangling entries included, each once and in
  the order of the containers. Each of them gives the identifiers at the parameters back, is what
  the path is bound to with these, and resolves to the type that the path resolves to.
-/
import StateTree.Proofs.Ancestors
import StateTree.Proofs.Comparison
import StateTree.Proofs.Regularity
import StateTree.Proofs.Scopes

namespace StateTree

/-! ### What is stored, and in which order -/

namespace Node

/-- The identifiers under which a node has entries, in its order. -/
def entryIds : Node → List Identifier
  | .catalog entities => Keyed.keys entities.entries
  | .listing all => all.ids
  | .sideTable table => Keyed.keys table.entries
  | _ => []

/-- A tree as containers hold it: nowhere in it is there an entry twice. -/
inductive Orderly : Node → Prop where
  | intro {node : Node} (distinct : node.entryIds.Nodup)
      (below : ∀ child ∈ node.children, Orderly child) : Orderly node

/-- Everything that segments name, from a node on, is stored: each field is there, a catalog or a
side table has each key, and a listing lists the identifier, whether or not its entity exists. -/
inductive Holds : Node → List Segment → Prop where
  | here {node : Node} : Holds node []
  | under {node child : Node} {segment : Segment} {segments : List Segment}
      (held : node.under? segment = some child) (rest : Holds child segments) :
      Holds node (segment :: segments)
  | listed {all : Listing} {id : Identifier} (member : id ∈ all.ids) :
      Holds (.listing all) [.entry id]

/-- Of two ways from a node the first comes before the second: where they part, its entry comes
earlier in the order of their container. -/
inductive Precedes : Node → List Segment → List Segment → Prop where
  | parting {node : Node} {id other : Identifier} {segments more : List Segment}
      (earlier : [id, other].Sublist node.entryIds) :
      Precedes node (.entry id :: segments) (.entry other :: more)
  | under {node child : Node} {segment : Segment} {segments more : List Segment}
      (held : node.under? segment = some child) (rest : Precedes child segments more) :
      Precedes node (segment :: segments) (segment :: more)

theorem Orderly.distinct {node : Node} : node.Orderly → node.entryIds.Nodup
  | intro distinct _ => distinct

theorem Orderly.child {node child : Node} : node.Orderly → child ∈ node.children → child.Orderly
  | intro _ below, member => below child member

theorem orderly_iff {node : Node} :
    node.Orderly ↔ node.entryIds.Nodup ∧ ∀ child ∈ node.children, child.Orderly :=
  ⟨fun whole => ⟨whole.distinct, fun _ => whole.child⟩, fun ⟨distinct, below⟩ => ⟨distinct, below⟩⟩

@[simp] theorem orderly_leaf :
    (∀ value, (bool value).Orderly) ∧ (∀ value, (int value).Orderly) ∧
      (∀ value, (str value).Orderly) ∧ (∀ value, (id value).Orderly) ∧
      ∀ target, (ref target).Orderly := by
  and_intros <;> exact fun _ => .intro .nil nofun

@[simp] theorem orderly_listing {all : Listing} : (listing all).Orderly ↔ all.ids.Nodup :=
  orderly_iff.trans (and_iff_left nofun)

@[simp] theorem orderly_struct {fields : Fields Node} :
    (struct fields).Orderly ↔ ∀ field ∈ fields.entries, field.2.Orderly :=
  orderly_iff.trans ((and_iff_right .nil).trans List.forall_mem_map)

@[simp] theorem orderly_catalog {entities : Catalog Node} : (catalog entities).Orderly ↔
    Keyed.Distinct entities.entries ∧ ∀ entry ∈ entities.entries, entry.2.Orderly :=
  orderly_iff.trans (and_congr_right' List.forall_mem_map)

@[simp] theorem orderly_sideTable {table : SideTable Node} : (sideTable table).Orderly ↔
    Keyed.Distinct table.entries ∧ ∀ entry ∈ table.entries, entry.2.Orderly :=
  orderly_iff.trans (and_congr_right' List.forall_mem_map)

variable {node : Node} {segment : Segment} {segments more : List Segment}

/-- No way comes before itself. -/
theorem Precedes.ne (precedes : node.Precedes segments more) (orderly : node.Orderly) :
    segments ≠ more := by
  induction precedes with
  | parting earlier =>
      intro same
      obtain rfl := Segment.entry_injective (List.cons.inj same).1
      exact List.nodup_iff_sublist.mp orderly.distinct _ earlier
  | under held _ ih =>
      intro same
      exact ih (orderly.child (mem_children held)) (List.cons.inj same).2

theorem under?_parameter (node : Node) (label : String) :
    node.under? (.parameter label) = none := by
  cases node <;> rfl

theorem holds_struct_iff {fields : Fields Node} {name : String} :
    (struct fields).Holds (.name name :: segments) ↔
      ∃ child, fields.get? name = some child ∧ child.Holds segments := by
  constructor
  · intro holds
    cases holds with
    | under held rest => exact ⟨_, held, rest⟩
  · rintro ⟨child, held, rest⟩
    exact .under held rest

theorem holds_listing_iff {all : Listing} :
    (listing all).Holds (segment :: segments) ↔
      ∃ id ∈ all.ids, segment = .entry id ∧ segments = [] := by
  constructor
  · intro holds
    cases holds with
    | under held rest => cases held
    | listed member => exact ⟨_, member, rfl, rfl⟩
  · rintro ⟨id, member, rfl, rfl⟩
    exact .listed member

/-- Of a node that leads on by the text of an identifier only, what is below an entry is held. -/
theorem holds_cons_iff_of_entries {find : Identifier → Option Node}
    (leads : ∀ text, node.under? (.name text) = (Identifier.ofString? text).bind find)
    (unlisted : ∀ other, node ≠ .listing other) :
    node.Holds (segment :: segments) ↔
      ∃ id child, segment = .entry id ∧ find id = some child ∧ child.Holds segments := by
  constructor
  · intro holds
    cases holds with
    | listed => exact absurd rfl (unlisted _)
    | @under _ child _ _ held rest =>
        cases segment with
        | parameter label => cases (under?_parameter node label).symm.trans held
        | name text =>
            rw [leads] at held
            obtain ⟨id, read, found⟩ := Option.bind_eq_some_iff.mp held
            obtain rfl := Identifier.ofString?_eq_some_iff.mp read
            exact ⟨id, child, rfl, found, rest⟩
  · rintro ⟨id, child, rfl, found, rest⟩
    refine .under ?_ rest
    rw [Segment.entry, leads, Identifier.ofString?_text]
    exact found

theorem holds_catalog_iff {entities : Catalog Node} :
    (catalog entities).Holds (segment :: segments) ↔ ∃ id child, segment = .entry id ∧
      entities.entries.lookup id = some child ∧ child.Holds segments :=
  holds_cons_iff_of_entries (fun _ => rfl) nofun

theorem holds_sideTable_iff {table : SideTable Node} :
    (sideTable table).Holds (segment :: segments) ↔ ∃ id child, segment = .entry id ∧
      table.entries.lookup id = some child ∧ child.Holds segments :=
  holds_cons_iff_of_entries (fun _ => rfl) nofun

end Node

/-! ### The order of the locations -/

namespace Path

theorem append_nil (base : Path) : base ++ (⟨[]⟩ : Path) = base :=
  congrArg mk (List.append_nil base.segments)

theorem push_append (base : Path) (segment : Segment) (segments : List Segment) :
    base.push segment ++ (⟨segments⟩ : Path) = base ++ (⟨segment :: segments⟩ : Path) :=
  congrArg mk (List.append_assoc base.segments [segment] segments)

end Path

section Order

variable {steps rest : List Step} {node child : Node} {segment : Segment} {base path : Path}

/-- Every location is below the path that the search is at. -/
theorem exists_of_mem_locations (member : path ∈ locations steps node base) :
    ∃ segments, path = base ++ (⟨segments⟩ : Path) := by
  fun_induction locations steps node base with
  | case1 node base => exact ⟨[], (List.mem_singleton.mp member).trans base.append_nil.symm⟩
  | case2 name deletable rest fields base child held ih =>
      obtain ⟨segments, rfl⟩ := ih member
      exact ⟨_, base.push_append _ segments⟩
  | case3 | case7 => cases member
  | case4 key rest entities base ih | case6 key domain steps rest table base ih =>
      obtain ⟨entry, -, below⟩ := List.mem_flatMap.mp member
      obtain ⟨segments, rfl⟩ := ih entry below
      exact ⟨_, base.push_append _ segments⟩
  | case5 key domain steps tail all base =>
      obtain ⟨id, -, rfl⟩ := List.mem_map.mp member
      exact ⟨[.entry id], rfl⟩

/-- Of two paths below a base, the first comes before the second in what a node holds. -/
def PrecedesBelow (node : Node) (base first second : Path) : Prop :=
  ∃ sooner later, first = base ++ (⟨sooner⟩ : Path) ∧ second = base ++ (⟨later⟩ : Path) ∧
    node.Precedes sooner later

/-- The order below a child is the order below the node. -/
theorem PrecedesBelow.outward {first second : Path} (held : node.under? segment = some child)
    (ordered : PrecedesBelow child (base.push segment) first second) :
    PrecedesBelow node base first second := by
  obtain ⟨sooner, later, rfl, rfl, precedes⟩ := ordered
  exact ⟨_, _, base.push_append segment sooner, base.push_append segment later,
    .under held precedes⟩

/-- The locations below some of the entries of a container come in its order, if those below each
of them do. -/
theorem pairwise_entries {entries : List (Identifier × Node)} {ahead : Identifier × Node → Bool}
    (distinct : Keyed.Distinct entries) (ids : node.entryIds = Keyed.keys entries)
    (under : ∀ id, node.under? (.entry id) = entries.lookup id)
    (ordered : ∀ entry ∈ entries, (locations rest entry.2 (base.entry entry.1)).Pairwise
      (PrecedesBelow entry.2 (base.entry entry.1))) :
    ((entries.filter ahead).flatMap fun entry =>
      locations rest entry.2 (base.entry entry.1)).Pairwise (PrecedesBelow node base) := by
  refine List.pairwise_flatMap.mpr ⟨fun entry kept => ?_, ?_⟩
  · have member := (List.mem_filter.mp kept).1
    have held := (under entry.1).trans (Keyed.lookup_of_mem distinct member)
    exact (ordered entry member).imp fun below => below.outward held
  · refine List.pairwise_iff_forall_sublist.mpr fun {entry other} kept => ?_
    intro first member second member'
    obtain ⟨segments, rfl⟩ := exists_of_mem_locations member
    obtain ⟨more, rfl⟩ := exists_of_mem_locations member'
    have earlier : [entry.1, other.1].Sublist node.entryIds :=
      ids ▸ (kept.trans List.filter_sublist).map Prod.fst
    exact ⟨_, _, base.push_append _ segments, base.push_append _ more, .parting earlier⟩

/-- Locations come in the order of their containers. By induction on the search: below one entry
they are in order, and those of an earlier entry come before those of a later one. -/
theorem pairwise_locations (orderly : node.Orderly) :
    (locations steps node base).Pairwise (PrecedesBelow node base) := by
  fun_induction locations steps node base with
  | case1 => exact List.pairwise_singleton _ _
  | case2 name deletable rest fields base child held ih =>
      have under : (Node.struct fields).under? (.name name) = some child := held
      exact (ih (orderly.child (Node.mem_children under))).imp fun below => below.outward under
  | case3 | case7 => exact .nil
  | case4 key rest entities base ih =>
      exact pairwise_entries orderly.distinct rfl (Node.under?_catalog entities)
        fun entry member => ih entry (orderly.child (List.mem_map_of_mem member))
  | case5 key domain steps tail all base =>
      refine List.pairwise_map.mpr (List.pairwise_iff_forall_sublist.mpr fun {id other} kept => ?_)
      exact ⟨[.entry id], [.entry other], rfl, rfl, .parting (kept.trans List.filter_sublist)⟩
  | case6 key domain steps rest table base ih =>
      exact pairwise_entries orderly.distinct rfl (Node.under?_sideTable table)
        fun entry member => ih entry (orderly.child (List.mem_map_of_mem member))

end Order

/-! ### Which locations there are -/

/-- A path is one below a base, by segments that match others and that a node holds. -/
def HeldBelow (node : Node) (whole : List Segment) (base path : Path) : Prop :=
  ∃ segments, path = base ++ (⟨segments⟩ : Path) ∧ Path.matchesSegments segments whole = true ∧
    node.Holds segments

theorem heldBelow_cons_iff {node : Node} {theirs : Segment} {whole : List Segment}
    {base path : Path} :
    HeldBelow node (theirs :: whole) base path ↔ ∃ segment segments,
      path = base.push segment ++ (⟨segments⟩ : Path) ∧
        (theirs.isParameter || segment == theirs) = true ∧
          Path.matchesSegments segments whole = true ∧ node.Holds (segment :: segments) := by
  constructor
  · rintro ⟨segments, rfl, suits, holds⟩
    obtain ⟨segment, rest, rfl, first, suits⟩ := Path.matchesSegments_cons_iff.mp suits
    exact ⟨segment, rest, (base.push_append segment rest).symm, first, suits, holds⟩
  · rintro ⟨segment, segments, rfl, first, suits, holds⟩
    exact ⟨segment :: segments, base.push_append segment segments,
      Path.matchesSegments_cons_iff.mpr ⟨segment, segments, rfl, first, suits⟩, holds⟩

/-- Of the entries of a container a step finds those that match its segment. -/
theorem mem_entryLocations_iff {node : Node} {entries : List (Identifier × Node)}
    {theirs : Segment} {key : Option Identifier} {whole : List Segment} {rest : List Step}
    {base path : Path} (keyed : theirs.entryKey = .ok key) (distinct : Keyed.Distinct entries)
    (holds : ∀ segment segments, node.Holds (segment :: segments) ↔ ∃ id child,
      segment = .entry id ∧ entries.lookup id = some child ∧ child.Holds segments)
    (below : ∀ entry ∈ entries, path ∈ locations rest entry.2 (base.entry entry.1) ↔
      HeldBelow entry.2 whole (base.entry entry.1) path) :
    path ∈ ((entries.filter fun entry => leadsTo key entry.1).flatMap fun entry =>
      locations rest entry.2 (base.entry entry.1)) ↔
        HeldBelow node (theirs :: whole) base path := by
  rw [heldBelow_cons_iff, List.mem_flatMap]
  constructor
  · rintro ⟨entry, kept, member⟩
    obtain ⟨stored, leads⟩ := List.mem_filter.mp kept
    obtain ⟨segments, rfl, suits, further⟩ := (below entry stored).mp member
    refine ⟨.entry entry.1, segments, rfl, ?_, suits, ?_⟩
    · exact (Segment.leadsTo_eq keyed entry.1).symm.trans leads
    · exact (holds _ _).mpr ⟨entry.1, entry.2, rfl, Keyed.lookup_of_mem distinct stored, further⟩
  · rintro ⟨segment, segments, rfl, first, suits, held⟩
    obtain ⟨id, child, rfl, found, further⟩ := (holds _ _).mp held
    have stored := Keyed.mem_of_lookup found
    refine ⟨(id, child), List.mem_filter.mpr ⟨stored, ?_⟩, ?_⟩
    · exact (Segment.leadsTo_eq keyed id).trans first
    · exact (below _ stored).mpr ⟨segments, rfl, suits, further⟩

namespace Schema

variable {schema : Schema} {type target : FieldType} {whole segments : List Segment}
  {steps : List Step} {node : Node} {base path : Path}

/-- The steps of a path find in a value of its type exactly what matches the path and is stored. By
induction on what the path resolves to. -/
theorem Leads.mem_locations_iff (leads : schema.Leads type whole steps target)
    (fits : schema.Fits type node) (orderly : node.Orderly) :
    path ∈ locations steps node base ↔ HeldBelow node whole base path := by
  induction leads generalizing node base with
  | here =>
      rw [locations, List.mem_singleton]
      constructor
      · rintro rfl
        exact ⟨[], path.append_nil.symm, rfl, .here⟩
      · rintro ⟨segments, rfl, suits, -⟩
        rw [Path.matchesSegments_nil_iff.mp suits, Path.append_nil]
  | @field _ name _ _ whole steps _ found named _ ih =>
      obtain ⟨fields, rfl⟩ := fits.struct_inv
      obtain ⟨declared, rfl⟩ := StructDef.mem_of_field? named
      have below {child : Node} (held : fields.get? _ = some child) (base : Path) :
          path ∈ locations steps child base ↔ HeldBelow child whole base path :=
        ih (fits.field found declared held)
          (orderly.child (List.mem_map_of_mem (Keyed.mem_of_lookup held)))
      rw [heldBelow_cons_iff, locations]
      constructor
      · intro member
        split at member
        · rename_i child held
          obtain ⟨segments, rfl, suits, further⟩ := (below held _).mp member
          exact ⟨_, segments, rfl, by simp, suits, Node.holds_struct_iff.mpr ⟨child, held, further⟩⟩
        · cases member
      · rintro ⟨segment, segments, rfl, first, suits, holds⟩
        obtain rfl : segment = .name _ := by simpa [Segment.isParameter] using first
        obtain ⟨child, held, further⟩ := Node.holds_struct_iff.mp holds
        rw [held]
        exact (below held _).mpr ⟨segments, rfl, suits, further⟩
  | catalogEntry keyed _ ih =>
      obtain ⟨entities, rfl⟩ := fits.catalog_inv
      exact mem_entryLocations_iff keyed orderly.distinct (fun _ _ => Node.holds_catalog_iff)
        fun entry stored => ih (fits_catalog_iff.mp fits entry stored).1
          (orderly.child (List.mem_map_of_mem stored))
  | listingEntry keyed _ =>
      obtain ⟨all, rfl⟩ := fits.listing_inv
      rw [heldBelow_cons_iff, locations, List.mem_map]
      constructor
      · rintro ⟨id, kept, rfl⟩
        obtain ⟨member, leads⟩ := List.mem_filter.mp kept
        exact ⟨.entry id, [], (Path.append_nil _).symm,
          (Segment.leadsTo_eq keyed id).symm.trans leads, rfl, .listed member⟩
      · rintro ⟨segment, segments, rfl, first, suits, holds⟩
        obtain ⟨id, member, rfl, rfl⟩ := Node.holds_listing_iff.mp holds
        refine ⟨id, List.mem_filter.mpr ⟨member, ?_⟩, (Path.append_nil _).symm⟩
        exact (Segment.leadsTo_eq keyed id).trans first
  | tableEntry keyed _ _ _ ih =>
      obtain ⟨table, rfl⟩ := fits.sideTable_inv
      exact mem_entryLocations_iff keyed orderly.distinct (fun _ _ => Node.holds_sideTable_iff)
        fun entry stored => ih ((fits_sideTable_iff.mp fits).2 entry stored)
          (orderly.child (List.mem_map_of_mem stored))

/-- What is stored under segments that match those of a path names entries at its parameters. -/
theorem Leads.exists_fills (leads : schema.Leads type whole steps target)
    (fits : schema.Fits type node) (suits : Path.matchesSegments segments whole = true)
    (holds : node.Holds segments) : ∃ ids, Path.Fills ids segments whole := by
  induction leads generalizing node segments with
  | here =>
      rw [Path.matchesSegments_nil_iff.mp suits]
      exact ⟨[], .done⟩
  | field found named _ ih =>
      obtain ⟨fields, rfl⟩ := fits.struct_inv
      obtain ⟨declared, rfl⟩ := StructDef.mem_of_field? named
      obtain ⟨segment, rest, rfl, first, others⟩ := Path.matchesSegments_cons_iff.mp suits
      obtain rfl : segment = .name _ := by simpa [Segment.isParameter] using first
      obtain ⟨child, held, further⟩ := Node.holds_struct_iff.mp holds
      obtain ⟨ids, fills⟩ := ih (fits.field found declared held) others further
      exact ⟨ids, .name fills⟩
  | catalogEntry _ _ ih =>
      obtain ⟨entities, rfl⟩ := fits.catalog_inv
      obtain ⟨segment, rest, rfl, first, others⟩ := Path.matchesSegments_cons_iff.mp suits
      obtain ⟨id, child, rfl, found, further⟩ := Node.holds_catalog_iff.mp holds
      have fitting := (fits_catalog_iff.mp fits _ (Keyed.mem_of_lookup found)).1
      exact Path.Fills.exists_entry first (ih fitting others further)
  | listingEntry =>
      obtain ⟨all, rfl⟩ := fits.listing_inv
      obtain ⟨segment, rest, rfl, first, others⟩ := Path.matchesSegments_cons_iff.mp suits
      obtain ⟨id, -, rfl, rfl⟩ := Node.holds_listing_iff.mp holds
      exact Path.Fills.exists_entry first ⟨[], .done⟩
  | tableEntry _ _ _ _ ih =>
      obtain ⟨table, rfl⟩ := fits.sideTable_inv
      obtain ⟨segment, rest, rfl, first, others⟩ := Path.matchesSegments_cons_iff.mp suits
      obtain ⟨id, child, rfl, found, further⟩ := Node.holds_sideTable_iff.mp holds
      have fitting := (fits_sideTable_iff.mp fits).2 _ (Keyed.mem_of_lookup found)
      exact Path.Fills.exists_entry first (ih fitting others further)

/-! ### Resolving what a path is bound to -/

/-- Where a parameter stands for an entry, any entry can stand. -/
theorem stepInto_entry {domainAt : Path → Except TreeError Accessor} {path : Path} {index : Nat}
    {label : String} {isLast : Bool} {step : Step} {next : FieldType}
    (stepped : schema.stepInto domainAt path index type (.parameter label) isLast =
      .ok (step, next)) (other : Path) (place : Nat) (id : Identifier) :
    ∃ own, schema.stepInto domainAt other place type (.entry id) isLast = .ok (own, next) := by
  cases type with
  | catalog entity =>
      cases stepped
      exact ⟨_, by rw [stepInto, Segment.entryKey_entry]; rfl⟩
  | listing domain =>
      cases isLast with
      | false => cases stepped
      | true =>
          obtain ⟨resolved, found, stepped⟩ := bind_eq_ok_iff.mp stepped
          cases shape : resolved.target with
          | catalog entity =>
              simp only [shape] at stepped
              cases stepped
              simp [stepInto, found, shape, Segment.entryKey_entry]
          | _ => simp [shape] at stepped
  | sideTable domain value =>
      obtain ⟨resolved, found, stepped⟩ := bind_eq_ok_iff.mp stepped
      cases stepped
      simp [stepInto, found, Segment.entryKey_entry]
  | _ => cases stepped

/-- Segments with identifiers in the place of parameters are resolved to the same type. -/
theorem stepsAlong_of_fills {domainAt : Path → Except TreeError Accessor} {path : Path}
    {index : Nat} {ids : List Identifier} (fills : Path.Fills ids segments whole)
    (along : schema.stepsAlong domainAt path index type whole = .ok (steps, target))
    (other : Path) (place : Nat) :
    ∃ own, schema.stepsAlong domainAt other place type segments = .ok (own, target) := by
  induction fills generalizing index place type steps with
  | done =>
      cases along
      exact ⟨[], rfl⟩
  | name rest ih =>
      obtain ⟨⟨step, next⟩, stepped, along⟩ := bind_eq_ok_iff.mp along
      obtain ⟨⟨more, _⟩, onward, same⟩ := bind_eq_ok_iff.mp along
      cases same
      obtain ⟨own, further⟩ := ih onward (place + 1)
      refine ⟨step :: own, bind_eq_ok_iff.mpr ⟨_, stepInto_of_last stepped ?_, ?_⟩⟩
      · rw [rest.isEmpty_eq]
        exact id
      · exact bind_eq_ok_iff.mpr ⟨_, further, rfl⟩
  | @parameter _ id _ _ _ rest ih =>
      obtain ⟨⟨step, next⟩, stepped, along⟩ := bind_eq_ok_iff.mp along
      obtain ⟨⟨more, _⟩, onward, same⟩ := bind_eq_ok_iff.mp along
      cases same
      rw [← rest.isEmpty_eq] at stepped
      obtain ⟨first, entered⟩ := stepInto_entry stepped other place id
      obtain ⟨own, further⟩ := ih onward (place + 1)
      refine ⟨first :: own, bind_eq_ok_iff.mpr ⟨_, entered, ?_⟩⟩
      exact bind_eq_ok_iff.mpr ⟨_, further, rfl⟩

/-- What a path is bound to resolves to the type that the path resolves to. -/
theorem resolve_of_fills {pattern path : Path} {accessor : Accessor} {ids : List Identifier}
    (resolved : schema.resolve pattern = .ok accessor)
    (fills : Path.Fills ids path.segments pattern.segments) :
    ∃ own, schema.resolve path = .ok own ∧ own.target = accessor.target := by
  obtain ⟨⟨steps, target⟩, along, same⟩ := bind_eq_ok_iff.mp resolved
  cases same
  obtain ⟨own, along⟩ := stepsAlong_of_fills fills along path 0
  exact ⟨⟨path, own, target⟩, bind_eq_ok_iff.mpr ⟨_, along, rfl⟩, rfl⟩

end Schema

/-! ### What is enumerated -/

namespace Accessor

variable {schema : Schema} {pattern path : Path} {accessor : Accessor} {root : Node}
  (resolved : schema.resolve pattern = .ok accessor) (valid : schema.Valid root)
  (orderly : root.Orderly)

include resolved valid orderly

/-- A location is enumerated exactly if it matches the path and is stored. -/
theorem mem_enumerate_iff : path ∈ accessor.enumerate root ↔
    path.matchesPattern pattern = true ∧ root.Holds path.segments := by
  rw [enumerate, (Schema.leads_of_resolve resolved).mem_locations_iff valid orderly]
  constructor
  · rintro ⟨segments, rfl, suits, holds⟩
    exact ⟨suits, holds⟩
  · rintro ⟨suits, holds⟩
    exact ⟨path.segments, rfl, suits, holds⟩

/-- What is enumerated is the path with entries in the place of its parameters. -/
theorem exists_fills_of_mem_enumerate (member : path ∈ accessor.enumerate root) :
    ∃ ids, Path.Fills ids path.segments pattern.segments := by
  obtain ⟨suits, holds⟩ := (mem_enumerate_iff resolved valid orderly).mp member
  exact (Schema.leads_of_resolve resolved).exists_fills valid suits holds

/-- What a path with parameters stands for in a valid tree is enumerated without repetition: the
paths without parameters that match it and are stored, dangling entries included, in the order of
the containers from the outermost on. Each gives the identifiers at the parameters back, is what the
path is bound to with them, and resolves to the type of the path; so a reference to the path is
bound by it. -/
theorem enumerate_exact :
    (accessor.enumerate root).Nodup ∧
    (∀ path, path ∈ accessor.enumerate root ↔ path.isParameterized = false ∧
      path.matchesPattern pattern = true ∧ root.Holds path.segments) ∧
    ((accessor.enumerate root).Pairwise fun first second =>
      root.Precedes first.segments second.segments) ∧
    ∀ path ∈ accessor.enumerate root, ∃ ids own,
      path.parameterValues? pattern = some ids ∧ pattern.bind ids = .ok path ∧
      schema.resolve path = .ok own ∧ own.target = accessor.target ∧
      ∀ site reading template, Reference.new site schema reading pattern = .ok template →
        template.boundBy path = .ok { template with accessor := own } := by
  have ordered : (accessor.enumerate root).Pairwise fun first second =>
      root.Precedes first.segments second.segments :=
    (pairwise_locations orderly).imp fun ⟨_, _, here, there, precedes⟩ => by
      subst here there
      exact precedes
  refine ⟨?_, fun path => ?_, ordered, fun path member => ?_⟩
  · exact ordered.imp fun precedes same => precedes.ne orderly (congrArg Path.segments same)
  · constructor
    · intro member
      obtain ⟨ids, fills⟩ := exists_fills_of_mem_enumerate resolved valid orderly member
      have held := (mem_enumerate_iff resolved valid orderly).mp member
      exact ⟨Path.isParameterized_of_fills fills, held⟩
    · exact fun ⟨_, held⟩ => (mem_enumerate_iff resolved valid orderly).mpr held
  · obtain ⟨ids, fills⟩ := exists_fills_of_mem_enumerate resolved valid orderly member
    obtain ⟨own, found, same⟩ := Schema.resolve_of_fills resolved fills
    have values := Path.parameterValues?_eq_some_iff_fills.mpr fills
    refine ⟨ids, own, values, Path.parameterValues?_eq_some_iff_bind.mp values, found, same, ?_⟩
    intro site reading template formed
    obtain ⟨other, rfl, rfl, rfl, -⟩ := Reference.new_cases formed
    cases resolved.symm.trans other
    exact Reference.boundBy_eq_ok formed fills found same

end Accessor

/-! ### In the sample -/

namespace Sample

/-- The labels of the parts below all marks. -/
def partLabels : Accessor :=
  ⟨⟨[.name "marks", .parameter "mark", .name "parts", .parameter "part", .name "label"]⟩,
    [.field "marks" false, .tableEntry none (.ofNames ["parts"]) [.field "parts" false],
      .field "parts" false, .catalogEntry none, .field "label" false], .str⟩

/-- Of the labels below the mark of a part that is gone, that of `b` comes first, as its entry does,
and the other one gives both identifiers back. -/
theorem partLabels_enumerated :
    forestSchema.resolve partLabels.path = .ok partLabels ∧ forestSchema.Valid newForest ∧
      newForest.Orderly ∧
      partLabels.enumerate newForest = [.ofNames ["marks", "b", "parts", "b", "label"],
        .ofNames ["marks", "b", "parts", "a", "label"]] ∧
      newForest.Holds [.name "marks", .name "b", .name "parts", .name "a", .name "label"] ∧
      ∃ ids own,
        (Path.ofNames ["marks", "b", "parts", "a", "label"]).parameterValues? partLabels.path =
          some ids ∧
        partLabels.path.bind ids = .ok (.ofNames ["marks", "b", "parts", "a", "label"]) ∧
        forestSchema.resolve (.ofNames ["marks", "b", "parts", "a", "label"]) = .ok own ∧
        own.target = .str := by
  have resolved : forestSchema.resolve partLabels.path = .ok partLabels := rfl
  have valid : forestSchema.Valid newForest := by decide +kernel
  have orderly : newForest.Orderly := by
    simp [newForest, Keyed.Distinct, Keyed.keys, a, b]
  have listed : partLabels.enumerate newForest =
      [.ofNames ["marks", "b", "parts", "b", "label"],
        .ofNames ["marks", "b", "parts", "a", "label"]] := rfl
  obtain ⟨-, every, -, back⟩ := Accessor.enumerate_exact resolved valid orderly
  have member :
      .ofNames ["marks", "b", "parts", "a", "label"] ∈ partLabels.enumerate newForest := by
    rw [listed]
    exact List.mem_cons_of_mem _ List.mem_cons_self
  obtain ⟨ids, own, values, bound, found, same, -⟩ := back _ member
  have holds := ((every _).mp member).2.2
  exact ⟨resolved, valid, orderly, listed, holds, ids, own, values, bound, found, same⟩

end Sample

end StateTree
