import EntityResolver.Proofs.Recursion
import EntityResolver.Proofs.Twin.Kinds

/-!
# What registration checks is enough

Pickers are checked against the fields of a schema once, when a method is registered. After that no
response can make a run fail on account of a method, and whatever is stored keeps to the kind of the
field that it is stored for.
-/

set_option autoImplicit false

namespace EntityResolver

def Demand.cls : Demand → ClassId
  | .entity cls _ _ _ _ | .list cls _ _ | .search cls _ _ => cls
  | .currentUser method _ => method.cls

/-- The session can be asked for the demand, by a text that selects fields of its class or by none.
Starred fields refer to the class that has them. -/
structure Session.Asks (session : Session) (demand : Demand) : Prop where
  valueless : demand.values = []
  selected : ∃ fields, session.classSelector demand.cls fields = .ok demand.selector
  stars : session.catalog.schema.StarsStay demand.cls demand.selector
  offered : ∀ method selector, demand = .currentUser method selector →
    session.catalog.currentUser = some method

/-- Every value keeps to the kind of its field, and its entities are in the arena and of the class
that the field refers to. -/
def KeepsKinds (schema : Schema) (arena : Array EntityRecord) : Prop :=
  ∀ (index : Nat) record, arena[index]? = some record →
    ∀ name value, (name, value) ∈ record.values →
      ∃ field, schema.field? record.cls name = some field ∧ field.kind.holds value = true ∧
        ∀ entity ∈ value.entities, ∃ target, field.kind.target? = some target ∧
          Hosts arena target entity

section

variable {session : Session} {naming : String → String} {declared : List ClassDecl}
    {demand : Demand}

namespace Run

/-- What a session is asked for is admitted by the run next to itself. -/
theorem Pairing.admits_of_asks (builds : session.catalog.schema.Builds naming declared)
    (checked : session.catalog.Checked)
    (tableless : ∀ method, .table method ∉ session.catalog.getters) (asked : session.Asks demand) :
    (kinds session.context builds checked tableless).AdmitsDemand demand := by
  obtain ⟨fields, selected⟩ := asked.selected
  obtain ⟨distinct, rooted⟩ := Session.rooted_of_classSelector builds.wellFormed selected
  have confined := Schema.confines_of_starsStay rooted distinct asked.stars nofun
  cases demand with
  | entity cls id selector values isWeak => exact ⟨asked.valueless, distinct, confined⟩
  | list cls domain selector => exact ⟨distinct, confined⟩
  | currentUser method selector => exact ⟨asked.offered _ _ rfl, distinct, confined⟩
  | search cls query selector =>
      refine ⟨rfl, fun method item field searched opened inner refers => ?_⟩
      obtain ⟨known, kind, _⟩ := SearchMethod.fields_of_itemField builds opened
      have ofClass : method.cls = cls := by simpa using List.find?_some searched
      obtain rfl : inner = cls := by
        rw [← ofClass]
        exact refers.unique ⟨field, known, by rw [kind]; rfl⟩
      refine ⟨⟨distinct, confined⟩, fun isRecursive => ?_⟩
      have entry : selector.entry? field.name = some .recursive := by
        simpa [Selector.isRecursive] using isRecursive
      cases (Selector.entrywise_rooted none).of_found rooted entry

/-- Whatever the remote answers, a run with registered methods does not fail on account of a method,
and at every point of it values have kept to the kinds of their fields. -/
theorem keepsKinds_of_run {schema : Schema} {registrations : List Registration}
    (built : Schema.ofDeclsNaming naming declared = .ok schema)
    (accepted : Catalog.ofRegistrations schema registrations = .ok session.catalog)
    (tableless : ∀ method, .getter (.table method) ∉ registrations)
    (demands : List Demand) (asked : ∀ demand ∈ demands, session.Asks demand) (limit : Nat)
    (earlier : List Call) (ended : RunState) :
    (∀ error, Demand.runWithin limit demands session.context { calls := earlier } =
      .error error ended → ¬ error.BlamesMethod) ∧
    (Leaves session.context (Demand.runWithin limit demands) { calls := earlier } ended →
      ended.arena = arenaAfter ended.events ∧
        ∀ past, past <:+ ended.events → KeepsKinds schema (arenaAfter past)) := by
  obtain ⟨rfl, checked, registered⟩ := Catalog.checked_of_ofRegistrations accepted
  have builds := Schema.builds_of_ofDeclsNaming built
  let pairing := Pairing.kinds session.context builds checked
    fun method offered => tableless method (registered _ offered)
  have start : pairing.Paired ({ calls := earlier }, { calls := earlier }) :=
    pairing.paired_start earlier
  have joins : pairing.Joins ({ calls := earlier }, { calls := earlier })
      (Demand.runWithin limit demands) (Demand.runWithin limit demands) fun one two _ =>
        one = two := by
    unfold Demand.runWithin
    apply (Pairing.joins_placeAll (fun demand member => ?_) start).bind
    · exact fun _ _ placed reached _ => Pairing.joins_executeWithin limit reached.valid
    · exact Pairing.admits_of_asks builds checked _ (asked demand member)
  refine ⟨fun error failed => joins.permits failed, fun leaves => ?_⟩
  obtain ⟨endedToo, reached⟩ := joins.of_leaves leaves
  refine ⟨reached.valid.recorded.replays,
    fun past earlier index record found name value stored => ?_⟩
  obtain ⟨twin, suits⟩ := reached.valid.recorded.always past (List.nil_suffix) earlier index record
    found name value stored
  rcases suits.alike with ⟨field, known, holds⟩ | apart
  · refine ⟨field, known, by rwa [FieldKind.holds_shape] at holds, fun entity member => ?_⟩
    obtain ⟨inner, ⟨fieldToo, knownToo, target⟩, hosted⟩ := suits.linked entity member
    cases known.symm.trans knownToo
    exact ⟨inner, target, hosted⟩
  · exact apart.elim

end Run

end

namespace Units

open Run

def session (parents : OrderedMap Json) : Session where
  catalog := (context parents).catalog
  remote := remote parents
  roundLimit := 0

theorem asks_lineage (parents : OrderedMap Json) (id : String) (demand : Demand)
    (member : demand ∈ lineage id) : (session parents).Asks demand := by
  cases List.mem_singleton.mp member
  refine ⟨rfl, ⟨some "parent*", congrArg (liftError ResolveError.selector) parse_ancestors⟩, ?_,
    nofun⟩
  have refers : schema.Refers cls "parent" cls := ⟨_, rfl, rfl⟩
  exact ⟨fun _ => refers, fun _ _ => trivial, trivial⟩

/-- The parent of a unit is read for a starred field, and is a unit itself. -/
theorem keepsKinds_line : ∃ ended,
    Leaves (session line).context (Demand.runWithin 2 (lineage "2")) { calls := [] } ended ∧
    ended.arena.size = 2 ∧ ended.arena = arenaAfter ended.events ∧
    ∀ past, past <:+ ended.events → KeepsKinds schema (arenaAfter past) := by
  obtain ⟨built, accepted⟩ := accepted line
  have leaves : Leaves (session line).context (Demand.runWithin 2 (lineage "2")) { calls := [] } _ :=
    .inl ⟨⟨2, 2, 0⟩, rfl⟩
  exact ⟨_, leaves, rfl, (keepsKinds_of_run built accepted (by simp) (lineage "2")
    (asks_lineage line "2") 2 [] _).2 leaves⟩

end Units

end EntityResolver
