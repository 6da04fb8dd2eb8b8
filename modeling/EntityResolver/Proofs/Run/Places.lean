import EntityResolver.Proofs.Catalog.Readings
import EntityResolver.Proofs.Run.Mentions
import EntityResolver.Proofs.SelectorTyping
import EntityResolver.Proofs.Supply

/-!
Where in a selector the targets of a request stand.

A request for one entity begins with a target for it. Every other target was spawned where a getter,
or a picker inside one, reads a field that the selector leads to, and what it lacks is not read
there.
-/

set_option autoImplicit false

namespace EntityResolver

open Run

namespace Schema

variable {schema : Schema} {root cls inner : ClassId} {selector level sub below : Selector}
variable {name other : String}

theorem Within.snoc (within : schema.Within root selector cls level)
    (selected : (name, sub) ∈ level.resolved) (refers : schema.Refers cls name inner) :
    schema.Within root selector inner sub := by
  induction within with
  | here => exact .next selected refers (.here _ _)
  | next selectedHere refersHere _ inductionHypothesis =>
      exact .next selectedHere refersHere (inductionHypothesis selected refers)

theorem Within.distinct (within : schema.Within root selector cls level)
    (distinct : selector.Distinct) : level.Distinct := by
  induction within with
  | here => exact distinct
  | next selected _ _ inductionHypothesis =>
      exact inductionHypothesis (distinct.of_mem_resolved selected)

/-- The selector leads to the class, and selects the field there as given, up to order. -/
structure Selects (schema : Schema) (root : ClassId) (selector : Selector) (cls : ClassId)
    (name : String) (sub : Selector) : Prop where
  distinct : sub.Distinct
  within : ∃ level deeper, schema.Within root selector cls level ∧
    (name, deeper) ∈ level.resolved ∧ sub.same deeper = true

/-- What is selected inside a field is selected for the class that it refers to. -/
theorem Selects.next (selects : schema.Selects root selector cls name sub)
    (distinct : selector.Distinct) (refers : schema.Refers cls name inner)
    (selected : (other, below) ∈ sub.resolved) :
    schema.Selects root selector inner other below := by
  obtain ⟨level, deeper, within, inLevel, same⟩ := selects.within
  have distinctDeeper := (within.distinct distinct).of_mem_resolved inLevel
  obtain ⟨further, inDeeper, sameFurther⟩ :=
    Selector.exists_resolved_of_same selects.distinct distinctDeeper same selected
  exact ⟨selects.distinct.of_mem_resolved selected, deeper, further, within.snoc inLevel refers,
    inDeeper, sameFurther⟩

end Schema

/-- The target is for the entity that the request is made for, or it was spawned where a field is
read, and its unresolved fields are not read there. -/
inductive Catalog.Places (catalog : Catalog) (root : ClassId) (selector : Selector)
    (target : Target) : Prop where
  | root (cls : target.cls = root) (same : target.selector = selector)
  | inside (reading : Reading) (read : reading ∈ catalog.readings)
      (selects : catalog.schema.Selects root selector reading.cls reading.field target.selector)
      (refers : catalog.schema.Refers reading.cls reading.field target.cls)
      (unread : ∀ name ∈ target.unresolved, reading.inside.find? name = none)

section Places

variable {catalog : Catalog} {root cls : ClassId} {selector sub : Selector} {name path : String}
variable {target continued : Target} {mention : Mention} {picker : Picker} {field : Field}
variable {response : Json}

theorem Catalog.Places.continues (places : catalog.Places root selector target)
    (continues : target.Continues continued) : catalog.Places root selector continued := by
  cases places with
  | root cls same => exact .root (continues.cls.trans cls) (continues.selector.trans same)
  | inside reading read selects refers unread =>
      exact .inside reading read (continues.selector ▸ selects) (continues.cls ▸ refers)
        fun name left => unread name (continues.unresolved.subset left)

theorem Catalog.Places.selects {other : Selector} (places : catalog.Places root selector target)
    (distinct : selector.Distinct) (selected : (name, other) ∈ target.selector.resolved)
    (distinctSub : sub.Distinct) (same : sub.same other = true) :
    catalog.schema.Selects root selector target.cls name sub := by
  cases places with
  | root isRoot isSelector =>
      subst isRoot
      subst isSelector
      exact ⟨distinctSub, target.selector, other, .here _ _, selected, same⟩
  | inside reading _ selects refers _ =>
      obtain ⟨distinctOther, level, deeper, within, inLevel, sameOther⟩ :=
        selects.next distinct refers selected
      have distinctDeeper := (within.distinct distinct).of_mem_resolved inLevel
      exact ⟨distinctSub, level, deeper, within, inLevel,
        Selector.same_trans distinctSub distinctOther distinctDeeper same sameOther⟩

theorem Mention.Leaves.places (leaves : mention.Leaves target)
    (read : ⟨cls, name, mention.fields⟩ ∈ catalog.readings)
    (selects : catalog.schema.Selects root selector cls name mention.selector)
    (refers : catalog.schema.Refers cls name mention.cls) :
    target.WellFormed ∧ catalog.Places root selector target := by
  refine ⟨⟨?_, ?_, ?_⟩, .inside ⟨cls, name, mention.fields⟩ read ?_ ?_ leaves.unread⟩
  · exact leaves.selector ▸ selects.distinct
  · exact leaves.selected.nodup selects.distinct.nodup
  · exact leaves.selector ▸ leaves.selected.subset
  · exact leaves.selector ▸ selects
  · exact leaves.cls ▸ refers

/-- What is left to do for an entity that a picker finds stands where the picker, or one inside it,
reads. -/
theorem Picker.Mentions.places
    (mentions : picker.Mentions catalog.schema path field response sub mention)
    (leaves : mention.Leaves target) (distinct : selector.Distinct)
    (declared : catalog.schema.field? cls name = some field)
    (selects : catalog.schema.Selects root selector cls name sub)
    (reads : picker.readings catalog.schema cls name ⊆ catalog.readings) :
    target.WellFormed ∧ catalog.Places root selector target := by
  induction mentions generalizing cls name with
  | item refers _ _ | member refers _ _ | described refers _ _ =>
      exact leaves.places (reads (Picker.mem_readings _ _ _ _)) selects ⟨_, declared, refers⟩
  | within refers _ selected picked declaredInside _ inductionHypothesis =>
      have refersTo : catalog.schema.Refers cls name _ := ⟨_, declared, refers⟩
      exact inductionHypothesis leaves declaredInside (selects.next distinct refersTo selected)
        (List.Subset.trans (Picker.readings_inside_subset refersTo picked) reads)

end Places

/-- The field of the class is selected, and neither read where it is selected nor supplied by a
getter. -/
inductive Catalog.Misses (catalog : Catalog) (root : ClassId)
    (selector : Selector) (cls : ClassId) (name : String) : Prop where
  | root (same : cls = root) (selected : name ∈ selector.names)
      (lacks : catalog.Lacks cls .none name)
  | inside (reading : Reading) (read : reading ∈ catalog.readings) (sub : Selector)
      (selects : catalog.schema.Selects root selector reading.cls reading.field sub)
      (refers : catalog.schema.Refers reading.cls reading.field cls) (selected : name ∈ sub.names)
      (lacks : catalog.Lacks cls reading.inside name)

theorem Catalog.Misses.gap {catalog : Catalog} {root cls : ClassId} {selector : Selector}
    {name : String} (misses : catalog.Misses root selector cls name)
    (distinct : selector.Distinct) (typed : catalog.schema.Typed root selector)
    (served : catalog.gettersOf root ≠ []) :
    (name ∈ selector.names ∧ (catalog.schema.className root, name) ∈ catalog.rootGaps) ∨
      ∃ outer field sub, catalog.schema.Selects root selector outer field sub ∧ name ∈ sub.names ∧
        ((catalog.schema.className outer, field), catalog.schema.className cls, name) ∈
          catalog.innerGaps := by
  cases misses with
  | root same selected lacks =>
      subst same
      obtain ⟨sub, inSelector⟩ := Selector.exists_mem_resolved selected
      obtain ⟨field, declared, _⟩ := typed cls selector (.here _ _) name sub inSelector
      exact .inl ⟨selected, mem_rootGaps served declared lacks⟩
  | inside reading read sub selects refers selected lacks =>
      obtain ⟨below, inSub⟩ := Selector.exists_mem_resolved selected
      obtain ⟨_, level, deeper, within, inLevel, _⟩ := selects.next distinct refers inSub
      obtain ⟨field, declared, _⟩ := typed cls level within name deeper inLevel
      exact .inr ⟨reading.cls, reading.field, sub, selects, selected,
        mem_innerGaps read refers declared lacks⟩

namespace Run

variable {context : RunContext} {root : ClassId} {selector : Selector}

theorem answeredFrom_any (getter : Getter) (remote : Remote) :
    getter.AnsweredFrom ⟨fun _ _ => True⟩ remote := by
  cases getter with
  | single method => exact fun _ _ _ _ _ _ _ => .inr trivial
  | batch method =>
      intro ids selector params earlier response _ _
      cases method.layout with
      | keyed => exact fun _ _ _ _ _ _ => .inr trivial
      | listed spec => exact fun _ _ _ _ _ _ _ => trivial
  | table method => trivial

/-- Throughout a request all waiting targets stand where the selector leads. -/
theorem persists_places (distinct : selector.Distinct) :
    Persists context fun target =>
      target.WellFormed ∧ context.catalog.Places root selector target where
  wellFormed fits := fits.1
  continues continues fits := ⟨fits.1.continues continues, fits.2.continues continues⟩
  fetches := by
    intro cls pool getter candidacy before results fetched fits offers offered none done target
      member
    obtain ⟨first, serves⟩ :=
      Getter.candidacy_serves (fun target member => (fits target member).1.1) offered
    obtain ⟨⟨valid, places⟩, rfl⟩ := fits first serves.first_mem
    obtain ⟨inGetters, sameClass⟩ : getter ∈ context.catalog.getters ∧ getter.cls = first.cls := by
      simpa [Catalog.gettersOf] using offers
    rcases fromRecords_fetch (answeredFrom_any getter context.remote) done target member with old |
      ⟨_, _, record, _, name, sub, selected, spawns⟩
    · rw [none] at old
      cases old
    obtain ⟨other, inFirst, same⟩ :=
      serves.exists_resolved valid valid (Target.isAlike_refl valid) selected
    have distinctCandidacy := serves.distinct valid
    obtain ⟨earlier, value?, later, new, loads, split, isNew⟩ := spawns
    obtain ⟨targets, splitToo, mentioned⟩ :=
      (getter.fields.traced_loadField getter.cls record name sub loads).targets
    rw [List.append_cancel_left (split.symm.trans splitToo)] at isNew
    obtain ⟨mention, ⟨picker, field, found, declared, mentions⟩, leaves⟩ := mentioned target isNew
    refine mentions.places leaves distinct declared ?_ ?_
    · rw [sameClass]
      exact places.selects distinct inFirst (distinctCandidacy.of_mem_resolved selected) same
    · exact List.Subset.trans (FieldPickers.readings_subset found)
        (Catalog.getter_readings_subset inGetters)

variable {id : String} {earlier : List Call} {ready : RunState}

theorem waits_of_entity (distinct : selector.Distinct)
    (begun : Yields context (do Demand.placeAll [.entity root id selector [] true]; prepare)
      { calls := earlier } () ready) :
    Waits (fun target => target.WellFormed ∧ context.catalog.Places root selector target)
      ready := by
  obtain ⟨_, placed, places, prepares⟩ := yields_bind_iff.mp begun
  simp only [Demand.placeAll, Demand.place, yields_bind_iff, yields_pure_iff,
    yields_spawn_nil_iff] at places
  obtain ⟨_, _, ⟨entity, _, ⟨rfl, rfl⟩, _, rfl⟩, _, rfl⟩ := places
  obtain ⟨satisfied, satisfies, rfl⟩ := yields_prepare_iff.mp prepares
  obtain ⟨_, rfl⟩ := yields_pure_iff.mp satisfies
  have none : RunState.Classed [] := by simp [RunState.Classed]
  refine ⟨rfl, classed_filled none, fun target member => ?_⟩
  have spawned := (perm_filled _).mem_iff.mp member
  obtain rfl : target = Origin.wish ⟨⟨0⟩, root, id, selector, true⟩ :=
    List.mem_singleton.mp (List.mem_of_mem_filter (List.mem_of_mem_filter spawned))
  exact ⟨⟨distinct, distinct.nodup, List.Subset.refl _⟩, .root rfl rfl⟩

/-- A request for an entity fails for want of a getter only where the selector asks for what the
catalog misses. -/
theorem misses_of_fails {limit : Nat} {className : String} {fields : List String}
    (distinct : selector.Distinct)
    (failed : Fails context (Demand.runWithin limit [.entity root id selector [] true])
      { calls := earlier } (.noApplicableMethod className fields)) :
    ∃ cls, className = context.catalog.schema.className cls ∧ fields ≠ [] ∧
      ∀ name ∈ fields, context.catalog.Misses root selector cls name := by
  obtain impossible | ⟨ready, state, begun, passes, fails⟩ := fails_of_run failed rfl
  · cases impossible
  obtain ⟨cls, pool, others, first, none, rfl, rfl⟩ := unserved_of_round fails
  have distinctDemands : ∀ demand ∈ [Demand.entity root id selector [] true],
      demand.selector.Distinct := by
    intro demand member
    cases List.mem_singleton.mp member
    exact distinct
  have tidy := (passes.reachable (reachable_of_begun distinctDemands begun)).tidy
  have unsupplied := unsupplied_openFields tidy (first ▸ List.mem_cons_self) none
  have waits := passes.waits (persists_places distinct) (waits_of_entity distinct begun)
  refine ⟨cls, rfl, unsupplied.nonempty, fun name lacking => ?_⟩
  have unserved (getter : Getter) (offers : getter ∈ context.catalog.gettersOf cls) :
      name ∉ getter.supplied := unsupplied.unsupplied getter offers name lacking
  obtain ⟨target, waiting, rfl, isOpen⟩ := (unsupplied.lacking name).mp lacking
  obtain ⟨valid, places⟩ := waits.fits target waiting
  have selected := valid.selected isOpen
  cases places with
  | root isRoot isSelector => exact .root isRoot (isSelector ▸ selected) ⟨rfl, unserved⟩
  | inside reading read selects refers unread =>
      exact .inside reading read _ selects refers selected ⟨unread name isOpen, unserved⟩

end Run

end EntityResolver
