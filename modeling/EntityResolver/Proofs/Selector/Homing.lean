import EntityResolver.Proofs.Selector.Confined
import EntityResolver.Proofs.SelectorTyping

/-!
Schemas in which every selector that was read is well typed.

A star is accepted where the class that a field refers to has the field again. If a field is had
again only by its own class, a star never leaves the class, and nothing is selected that is not
there.
-/

set_option autoImplicit false

namespace EntityResolver

/-- A field that the class it refers to has again refers to its own class. -/
def Schema.RepeatsAtHome (schema : Schema) : Prop :=
  ∀ ⦃cls name inner field⦄, schema.Refers cls name inner → schema.field? inner name = some field →
    inner = cls

def Schema.repeatsAtHome (schema : Schema) : Bool :=
  schema.classes.all fun cls => cls.fields.all fun field =>
    field.kind.target?.all fun inner => (schema.field? inner field.name).isNone || inner == cls.id

theorem Schema.repeatsAtHome_sound {schema : Schema} (wellFormed : schema.WellFormed)
    (checked : schema.repeatsAtHome = true) : schema.RepeatsAtHome := by
  rintro cls name inner again ⟨field, declared, refers⟩ found
  obtain ⟨known, isKnown, isField⟩ := Option.bind_eq_some_iff.mp declared
  have named : field.name = name := by simpa using List.find?_some isField
  have inClasses : known ∈ schema.classes := List.mem_of_getElem? isKnown
  have all := List.all_eq_true.mp (List.all_eq_true.mp checked known inClasses) field
    (List.mem_of_find?_eq_some isField)
  rw [refers, Option.all_some, named, found] at all
  exact (by simpa using all : inner = known.id).trans (wellFormed.placed isKnown)

theorem Schema.Enters.eq_of_atHome {schema : Schema} {id first inner : ClassId} {name : String}
    {sub : Selector} (entered : schema.Enters id name sub inner)
    (refers : schema.Refers id name first)
    (atHome : sub.entry? name = some .recursive → first = id) : inner = first := by
  obtain ⟨other, refersToo, isFirst | ⟨starred, repeats⟩⟩ := entered
  · exact isFirst.trans (refersToo.unique refers)
  · obtain rfl := refersToo.unique refers
    have isHome := atHome (by simpa [Selector.isRecursive] using starred)
    subst isHome
    induction repeats with
    | refl => rfl
    | tail _ refersOn inductionHypothesis =>
        subst inductionHypothesis
        exact refersOn.unique refers

namespace Selector

variable {schema : Schema} {cls : EntityClass} {id : ClassId} {selector : Selector}

theorem fits_of_repeatsAtHome (home : schema.RepeatsAtHome) {around? : Option String}
    (distinct : selector.Distinct) (rooted : Rooted around? selector)
    (known : schema.class? id = some cls) (formed : Formed schema cls selector)
    (stays : ∀ name, around? = some name → selector.entry? name = some .recursive →
      schema.Refers id name id) : Fits schema id selector := by
  induction selector generalizing id cls around? with
  | empty => trivial
  | recursive name rest behind =>
      obtain ⟨rfl, rootedRest⟩ := rooted
      have refers : schema.Refers id name id := stays name rfl (if_pos rfl)
      refine ⟨⟨id, refers⟩, behind distinct.2 rootedRest known formed.2 fun other same _ => ?_⟩
      cases same
      exact refers
  | nested name sub rest below behind =>
      obtain ⟨⟨field, found, _, fits⟩, formedRest⟩ := formed
      obtain ⟨fresh, distinctSub, distinctRest⟩ := distinct
      have declared : schema.field? id name = some field := by simp [Schema.field?, known, found]
      have staysRest (other : String) (same : around? = some other)
          (recursive : rest.entry? other = some .recursive) : schema.Refers id other id := by
        refine stays other same ((if_neg ?_).trans recursive)
        rintro rfl
        exact fresh (mem_names_of_found recursive)
      refine ⟨⟨⟨field, declared, fun nonempty => ?_⟩, fun inner entered => ?_⟩,
        behind distinctRest rooted.2 known formedRest staysRest⟩
      · obtain ⟨target, refers, _⟩ := fits nonempty
        obtain ⟨_, refersTo, _⟩ := Option.bind_eq_some_iff.mp refers
        simp [FieldKind.isEntity, refersTo]
      · by_cases isEmpty : sub = .empty
        · rw [isEmpty]
          trivial
        · obtain ⟨target, refersTo, formedSub⟩ := fits isEmpty
          obtain ⟨first, targetOf, knownFirst⟩ := Option.bind_eq_some_iff.mp refersTo
          have refers : schema.Refers id name first := ⟨field, declared, targetOf⟩
          -- below a star the field is one of the class itself, and refers to that class again
          have atHome (starred : sub.entry? name = some .recursive) : first = id := by
            obtain ⟨again, foundAgain⟩ :=
              (entrywise_formed schema target).of_found formedSub starred
            have declaredAgain : schema.field? first name = some again := by
              simp [Schema.field?, knownFirst, foundAgain]
            exact home refers declaredAgain
          obtain rfl := entered.eq_of_atHome refers atHome
          refine below distinctSub rooted.1 knownFirst formedSub fun other isName starred => ?_
          cases isName
          exact atHome starred ▸ refers

end Selector

theorem Session.typed_of_classSelector {session : Session} {cls : ClassId} {selector : Selector}
    {fields : Option String} (wellFormed : session.catalog.schema.WellFormed)
    (home : session.catalog.schema.RepeatsAtHome)
    (selected : session.classSelector cls fields = .ok selector) :
    session.catalog.schema.Typed cls selector := by
  obtain ⟨distinct, rooted⟩ := session.rooted_of_classSelector wellFormed selected
  have fits : Selector.Fits session.catalog.schema cls selector := by
    cases known : session.catalog.schema.class? cls with
    | none =>
        have isEmpty : selector = .empty := by
          cases fields <;>
            simpa [Session.classSelector, Schema.defaultSelector, known, eq_comm] using selected
        rw [isEmpty]
        trivial
    | some found =>
        have formed : Selector.Formed session.catalog.schema found selector := by
          cases fields with
          | none =>
              cases selected
              simpa [Schema.defaultSelector, known] using
                (Selector.formed_defaultSelector wellFormed known).2
          | some text =>
              simp only [Session.classSelector, known] at selected
              exact (Selector.formed_of_parse wellFormed known (liftError_eq_ok_iff.mp selected)).2
        exact Selector.fits_of_repeatsAtHome home distinct rooted known formed (by simp)
  exact Selector.Stands.typed ⟨distinct, fits, none, rooted, by simp⟩

end EntityResolver
