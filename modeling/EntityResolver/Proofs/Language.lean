import EntityResolver.Proofs.Selector.Rooted
import EntityResolver.Proofs.SelectorText
import EntityResolver.Proofs.Twin.Requests

/-!
# The language decides nothing but texts

Getting, listing and asking for the current user take the same calls in both languages, come to the
same end and find the same entities. Only scalars of fields that are read in a language may differ,
and a catalog tells which fields these are.
-/

set_option autoImplicit false

namespace EntityResolver

def Run.Pairing.languages (context : RunContext) (other : Lang) (differs : other ≠ context.lang) :
    Pairing context other where
  permits _ := True
  admits _ selector := selector.Distinct
  trusts cls name picker :=
    picker.spoken context.catalog.schema cls name ⊆ context.catalog.spoken
  holds _ _ _ := True
  apart cls name _ _ := (cls, name) ∈ context.catalog.spoken
  links _ _ _ := True
  permitted _ := trivial
  distinct admitted := admitted
  projects names admitted := admitted.project names
  below admitted member _ :=
    ⟨admitted.of_mem_resolved member, fun _ => ⟨fun _ holds => holds, fun _ links => links⟩⟩
  known _ _ _ := trivial
  refers _ _ _ := .inr fun _ => trivial
  inside trusted refers found := List.Subset.trans (Picker.spoken_inside_subset refers found) trusted
  linked _ _ := trivial
  missing _ := trivial
  scalars {_ _ rule _ _ _ _} trusted read readToo := by
    cases isSpoken : rule.isSpoken with
    | false =>
        rw [ScalarRule.apply_eq isSpoken other context.lang] at readToo
        exact .inl ⟨Except.ok.inj (readToo.symm.trans read), trivial⟩
    | true => exact .inr (trusted (by simp [Picker.spoken, isSpoken]))
  gives _ _ _ := trivial
  nulls _ _ := trivial
  revives _ _ _ := trivial
  getters offered found :=
    List.Subset.trans (FieldPickers.spoken_subset found) (Catalog.getter_spoken_subset offered)
  tables _ := ⟨fun _ => trivial, fun _ _ => trivial⟩
  lists offered found :=
    List.Subset.trans (FieldPickers.spoken_subset found) (Catalog.list_spoken_subset offered)
  currentUser offered found :=
    List.Subset.trans (FieldPickers.spoken_subset found) (Catalog.currentUser_spoken_subset offered)
  searches _ same := absurd same differs

/-- Whatever the remote answers, a request makes the same calls in Polish and in English, at the
same cost, and it fails in the same way or finds the same entities, with the same values for all
fields but those that the catalog reads in a language. -/
theorem same_in_languages {naming : String → String} {declared : List ClassDecl}
    (session : Session) (built : Schema.ofDeclsNaming naming declared = .ok session.catalog.schema)
    (fields : Option String)
    (state : SessionState) :
    let mute := session.catalog.spoken
    let polish := session.inLang .pl
    let english := session.inLang .en
    (∀ cls id, Agree (Entity.muted mute) (polish.get cls id fields state)
      (english.get cls id fields state)) ∧
    (∀ cls ids, Agree (Entity.mutedMap mute) (polish.getMany cls ids fields state)
      (english.getMany cls ids fields state)) ∧
    (∀ cls domain, Agree (Entity.mutedList mute) (polish.list cls domain fields state)
      (english.list cls domain fields state)) ∧
    Agree (Entity.muted mute) (polish.currentUser fields state)
      (english.currentUser fields state) := by
  intro mute polish english
  have wellFormed : polish.catalog.schema.WellFormed := Schema.wellFormed_of_ofDeclsNaming built
  let pairing := Run.Pairing.languages polish.context .en nofun
  have covers {cls : ClassId} {name : String} {one two : Scalar}
      (apart : pairing.apart cls name one two) : (cls, name) ∈ mute := apart
  have admits (cls : ClassId) (selector : Selector)
      (selected : polish.classSelector cls fields = .ok selector) : pairing.admits cls selector :=
    (Session.rooted_of_classSelector wellFormed selected).1
  have selects {α δ : Type} {look : α → δ} {cls : String}
      {next nextToo : ClassId × Selector → Request α}
      (rest : ∀ cls selector, pairing.admits cls selector →
        Agree look (next (cls, selector) state) (nextToo (cls, selector) state)) :
      Agree look ((ofExcept (polish.selector cls fields) >>= next) state)
        ((ofExcept (english.selector cls fields) >>= nextToo) state) := by
    apply agree_ofExcept_bind
    rintro ⟨id, selector⟩ selected
    obtain ⟨id, _, continued⟩ := bind_eq_ok_iff.mp selected
    obtain ⟨selector, chosen, same⟩ := bind_eq_ok_iff.mp continued
    cases same
    exact rest id selector (admits id selector chosen)
  refine ⟨fun cls id => ?_, fun cls ids => ?_, fun cls domain => ?_, ?_⟩
  · exact selects fun cls selector admitted => Run.Pairing.agree_getWith covers admitted id state
  · exact selects fun cls selector admitted =>
      Run.Pairing.agree_getManyWith covers admitted ids state
  · exact selects fun cls selector admitted =>
      Run.Pairing.agree_listWith covers admitted domain state
  · exact Run.Pairing.agree_currentUser covers admits state

namespace Lectures

def session : Session where
  catalog := { Catalog.empty schema with
    getters := [.single
      { path := "courses/course"
        cls := ⟨0⟩
        id := .elementary "course_id"
        pickers := .field "name" (.scalar .byLang "name") .none }] }
  remote _ _ := .ok (.object [("name", .object [("pl", .str "Analiza"), ("en", .str "Analysis")])])
  roundLimit := 2

/-- The name of a course differs, and nothing else. -/
theorem same_in_languages_course :
    Schema.ofDecls decls = .ok session.catalog.schema ∧ ∃ one two after,
      (session.inLang .pl).get "Course" "1" none {} = .ok one after ∧
      (session.inLang .en).get "Course" "1" none {} = .ok two after ∧
      one.fields = [("name", .scalar (.str "Analiza"))] ∧
      two.fields = [("name", .scalar (.str "Analysis"))] ∧
      two.muted [(⟨0⟩, "name")] = one.muted [(⟨0⟩, "name")] := by
  have built : Schema.ofDecls decls = .ok session.catalog.schema := by decide +kernel
  have agree := (same_in_languages session built none {}).1 "Course" "1"
  exact ⟨built, _, _, _, rfl, rfl, rfl, rfl, agree.1⟩

end Lectures

end EntityResolver
