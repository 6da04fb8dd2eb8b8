import EntityResolver.Proofs.Run.Candidates
import EntityResolver.Proofs.Run.Learning
import EntityResolver.Proofs.Run.Reading

/-!
Steps of a run keep what is known of entities sound.
-/

set_option autoImplicit false

namespace EntityResolver

variable {context : RunContext} {truth : Truth context.catalog.schema}
variable {before middle after : RunState} {target continued : Target} {live rest : List Target}
variable {path : String} {values : FieldValues} {results : FetchResults}

theorem perm_append_swap {α : Type} (one two three : List α) :
    (one ++ (two ++ three)).Perm (two ++ (one ++ three)) := by
  rw [← List.append_assoc, ← List.append_assoc]
  exact List.perm_append_comm.append_right three

/-- What a call says of an entity is true. -/
def Answers (truth : Truth context.catalog.schema) (state : RunState) (key : EntityKey)
    (selector : Selector) : Option FetchOutcome → Prop
  | some (.found values) => Carries truth state key selector values
  | some .absent | none => truth.lacks key.1 key.2 selector

theorem Answers.mono {key : EntityKey} {selector : Selector} {outcome? : Option FetchOutcome}
    (keeps : before.Keeps after) (answers : Answers truth before key selector outcome?) :
    Answers truth after key selector outcome? := by
  unfold Answers at answers ⊢
  split
  · exact answers.mono keeps
  · exact answers
  · exact answers

namespace Sound

open Run

theorem resolveAndCache {name : String} {sub : Selector} {value : FieldValue Handle}
    (sound : Sound truth (target :: rest) before) (wanted : name ∈ target.unresolved)
    (selected : (name, sub) ∈ target.selector.resolved)
    (means : Means truth before target.key name sub value)
    (done : Yields context (Run.resolveAndCache target name value) before continued after) :
    continued = target.without name ∧ Sound truth (continued :: rest) after ∧
      before.Keeps after := by
  obtain ⟨rfl, rfl⟩ := yields_resolveAndCache_iff.mp done
  obtain ⟨kept, keeps⟩ := sound.keep means
  obtain ⟨stored, keepsToo⟩ := kept.store .response wanted selected (means.mono keeps)
  exact ⟨rfl, stored, keeps.trans keepsToo⟩

theorem resolveGiven {names : List String} (sound : Sound truth (target :: rest) before)
    (nodup : names.Nodup) (wanted : names ⊆ target.unresolved)
    (carries : Carries truth before target.key target.selector values)
    (done : Yields context (Run.resolveGiven values names target) before continued after) :
    Sound truth (continued :: rest) after ∧ before.Keeps after := by
  induction names generalizing before target with
  | nil =>
      obtain ⟨rfl, rfl⟩ := yields_pure_iff.mp done
      exact ⟨sound, .refl _⟩
  | cons name rest inductionHypothesis =>
      obtain ⟨new, nodup⟩ := List.nodup_cons.mp nodup
      obtain ⟨here, wanted⟩ := List.cons_subset.mp wanted
      simp only [Run.resolveGiven] at done
      cases given : values.get? name with
      | none =>
          rw [given] at done
          exact inductionHypothesis sound nodup wanted carries done
      | some value =>
          simp only [given, yields_bind_iff] at done
          obtain ⟨resolved, middle, first, remaining⟩ := done
          obtain ⟨sub, selected, means⟩ := carries name value (OrderedMap.mem_of_get? given)
          obtain ⟨rfl, soundMiddle, keeps⟩ := sound.resolveAndCache here selected means first
          have others : rest ⊆ (target.without name).unresolved := by
            intro other member
            have different : other ≠ name := by
              rintro rfl
              exact new member
            exact (List.mem_erase_of_ne different).mpr (wanted member)
          obtain ⟨soundAfter, keepsToo⟩ :=
            inductionHypothesis soundMiddle nodup others (carries.mono keeps) remaining
          exact ⟨soundAfter, keeps.trans keepsToo⟩

theorem spawn {cls : ClassId} {id : String} {selector : Selector} {isWeak : Bool} {entity : Handle}
    (sound : Sound truth live before) (distinct : selector.Distinct)
    (carries : Carries truth before (cls, id) selector values)
    (done : Yields context (Run.spawn cls id selector values isWeak) before entity after) :
    ⟨entity, cls, id, selector, isWeak⟩ ∈ after.origins ∧ before.Keeps after ∧
      ∃ new, after.spawned = before.spawned ++ new ∧ Sound truth (new ++ live) after := by
  obtain ⟨rfl, target, resolved, given, rfl⟩ := yields_spawn_iff.mp done
  let origin := before.next cls id selector isWeak
  have spawned : Sound truth (origin.wish :: live) (before.begun origin) ∧
      before.Keeps (before.begun origin) := sound.spawned distinct rfl
  obtain ⟨begun, keeps⟩ := spawned
  have queue : resolved.spawned = before.spawned := (quiet_resolveGiven given).2.spawned
  obtain ⟨soundToo, keepsToo⟩ := begun.resolveGiven distinct.nodup (List.Subset.refl _)
    (carries.mono keeps) given
  have member := keepsToo.origins origin List.mem_cons_self
  obtain ⟨soundAfter, last⟩ := soundToo.active.frame _ _ _ _ _ _
  exact ⟨member, (keeps.trans keepsToo).trans last, [target].filter Target.isActive,
    by rw [RunState.enlisted, queue], soundAfter⟩

theorem resolveFetched {names : List String} (sound : Sound truth (target :: rest) before)
    (carries : Carries truth before target.key target.selector values)
    (done : Yields context (Run.resolveFetched path values names target) before continued after) :
    Sound truth (continued :: rest) after ∧ before.Keeps after := by
  induction names generalizing before target with
  | nil =>
      obtain ⟨rfl, rfl⟩ := yields_pure_iff.mp done
      exact ⟨sound, .refl _⟩
  | cons name rest inductionHypothesis =>
      simp only [Run.resolveFetched] at done
      split at done
      · rename_i wanted
        split at done
        · rename_i value given
          simp only [yields_bind_iff] at done
          obtain ⟨resolved, middle, first, remaining⟩ := done
          obtain ⟨sub, selected, means⟩ := carries name value (OrderedMap.mem_of_get? given)
          obtain ⟨rfl, soundMiddle, keeps⟩ :=
            sound.resolveAndCache (by simpa using wanted) selected means first
          obtain ⟨soundAfter, keepsToo⟩ :=
            inductionHypothesis soundMiddle (carries.mono keeps) remaining
          exact ⟨soundAfter, keeps.trans keepsToo⟩
        · exact absurd done not_yields_throw
      · exact inductionHypothesis sound carries done

theorem settle {names : List String} (sound : Sound truth (target :: rest) before)
    (answers : Answers truth before target.key target.selector (results.get? target.id))
    (done : Yields context (Run.settle path names results target) before continued after) :
    Sound truth ([continued].filter Target.isActive ++ rest) after ∧ before.Keeps after := by
  have absent (lacks : truth.lacks target.cls target.id target.selector)
      (given : Yields context (Run.giveUp target) before continued after) :
      Sound truth ([continued].filter Target.isActive ++ rest) after ∧ before.Keeps after := by
    obtain ⟨isWeak, rfl, rfl⟩ := yields_giveUp_iff.mp given
    exact sound.giveUp isWeak lacks
  unfold Run.settle at done
  unfold Answers at answers
  split at done
  · rename_i values found
    simp only [found] at answers
    obtain ⟨soundAfter, keeps⟩ := sound.resolveFetched answers done
    exact ⟨soundAfter.active, keeps⟩
  · rename_i found
    simp only [found] at answers
    exact absent answers done
  · rename_i found
    simp only [found] at answers
    exact absent answers done

theorem settleChosen {names : List String} {chosen : List Nat} {position : Nat}
    {pool settled : List Target} (sound : Sound truth (pool ++ rest) before)
    (answers : ∀ (index : Nat) target, pool[index]? = some target → position + index ∈ chosen →
      Answers truth before target.key target.selector (results.get? target.id))
    (done : Yields context (Run.settleChosen path names results chosen position pool) before settled
      after) :
    Sound truth (settled.filter Target.isActive ++ rest) after ∧ before.Keeps after := by
  induction pool generalizing position before settled rest with
  | nil =>
      obtain ⟨rfl, rfl⟩ := yields_pure_iff.mp done
      exact ⟨sound, .refl _⟩
  | cons target others inductionHypothesis =>
      rw [settleChosen_cons] at done
      simp only [yields_bind_iff, yields_pure_iff] at done
      obtain ⟨continued, middle, first, settled, _, remaining, rfl, rfl⟩ := done
      have head : Sound truth ([continued].filter Target.isActive ++ (others ++ rest)) middle ∧
          before.Keeps middle := by
        unfold settleAt at first
        split at first
        · rename_i isChosen
          exact sound.settle (answers 0 target rfl (by simpa using isChosen)) first
        · obtain ⟨rfl, rfl⟩ := yields_pure_iff.mp first
          exact ⟨sound.active, .refl _⟩
      obtain ⟨soundMiddle, keeps⟩ := head
      have moved : Sound truth (others ++ ([continued].filter Target.isActive ++ rest)) middle :=
        soundMiddle.perm (perm_append_swap _ _ _)
      obtain ⟨soundAfter, keepsToo⟩ := inductionHypothesis moved (fun index other at_ isChosen =>
        (answers (index + 1) other at_
          (by rwa [Nat.add_right_comm, Nat.add_assoc] at isChosen)).mono keeps) remaining
      rw [← List.singleton_append, List.filter_append, List.append_assoc]
      exact ⟨soundAfter.perm (perm_append_swap _ _ _), keeps.trans keepsToo⟩

/-- Entities out of the cache are known by id alone. -/
theorem restore {cls : ClassId} {kept : FieldValue String} {value : FieldValue Handle}
    (sound : Sound truth live before)
    (done : Yields context (kept.traverseEntities fun id => Run.alloc cls (some id) []) before
      value after) :
    Sound truth live after ∧ before.Keeps after ∧
      value.Rel (after.Stands .empty) (kept.mapEntities fun id => (cls, id)) := by
  have each {id : String} {before : RunState} {entity : Handle} {after : RunState}
      (sound : Sound truth live before)
      (done : Yields context (Run.alloc cls (some id) []) before entity after) :
      Sound truth live after ∧ before.Keeps after ∧ after.Stands .empty entity (cls, id) := by
    obtain ⟨rfl, rfl⟩ := yields_alloc_iff.mp done
    obtain ⟨soundAfter, keeps⟩ := sound.alloc ⟨cls, some id, []⟩
    exact ⟨soundAfter, keeps, .inr ⟨rfl, sound.bare_fresh (cls, id)⟩⟩
  obtain ⟨soundAfter, keeps, same⟩ := yields_traverseEntities (Sound truth live) RunState.Keeps
    (fun state id entity => state.Stands .empty entity (cls, id)) .refl .trans
    (fun keeps stands => stands.mono keeps) (fun _ => each) sound done
  exact ⟨soundAfter, keeps, same.symm.map_right fun _ _ stands => stands⟩

theorem resolveCached {served : List (String × FieldValue String)}
    (sound : Sound truth (target :: rest) before) (nodup : (served.map Prod.fst).Nodup)
    (known : ∀ name kept, (name, kept) ∈ served → name ∈ target.unresolved ∧
      (name, .empty) ∈ target.selector.resolved ∧
      truth.Remembers ⟨target.cls, target.id, name, kept⟩)
    (done : Yields context (Run.resolveCached served target) before continued after) :
    Sound truth (continued :: rest) after ∧ before.Keeps after := by
  induction served generalizing before target with
  | nil =>
      obtain ⟨rfl, rfl⟩ := yields_pure_iff.mp done
      exact ⟨sound, .refl _⟩
  | cons entry others inductionHypothesis =>
      obtain ⟨name, kept⟩ := entry
      obtain ⟨new, nodup⟩ := List.nodup_cons.mp nodup
      have knownRest := fun name kept member => known name kept (List.mem_cons_of_mem _ member)
      obtain ⟨wanted, selected, remembers⟩ := known name kept List.mem_cons_self
      simp only [Run.resolveCached, yields_bind_iff, yields_schema_iff] at done
      obtain ⟨_, _, ⟨rfl, rfl⟩, done⟩ := done
      split at done
      · exact inductionHypothesis sound nodup knownRest done
      · rename_i field found
        simp only [yields_bind_iff, yields_resolve_iff, yields_modify_iff] at done
        obtain ⟨value, restored, traversed, _, _, ⟨rfl, rfl⟩, _, _, rfl, remaining⟩ := done
        obtain ⟨soundRestored, keeps, same⟩ := sound.restore traversed
        obtain ⟨stored, keepsToo⟩ :=
          soundRestored.store .cache wanted selected ⟨_, remembers field found, same⟩
        obtain ⟨counted, last⟩ := stored.frame _ _ _ _ _ _
        have knownLeft : ∀ other stored, (other, stored) ∈ others →
            other ∈ (target.without name).unresolved ∧
            (other, .empty) ∈ target.selector.resolved ∧
            truth.Remembers ⟨target.cls, target.id, other, stored⟩ := by
          intro other stored member
          obtain ⟨wantedToo, selectedToo, remembersToo⟩ := knownRest other stored member
          have different : other ≠ name := by
            rintro rfl
            exact new (List.mem_map.mpr ⟨_, member, rfl⟩)
          exact ⟨(List.mem_erase_of_ne different).mpr wantedToo, selectedToo, remembersToo⟩
        obtain ⟨soundAfter, more⟩ := inductionHypothesis counted nodup knownLeft remaining
        exact ⟨soundAfter, ((keeps.trans keepsToo).trans last).trans more⟩

theorem sublist_servable (state : RunState) (target : Target) :
    ((servable state target).map Prod.fst).Sublist target.unresolved := by
  unfold servable
  induction target.unresolved with
  | nil => exact .slnil
  | cons name rest inductionHypothesis =>
      rw [List.filterMap_cons]
      split
      · exact inductionHypothesis.cons name
      · rename_i entry found
        split at found
        · obtain ⟨value, _, same⟩ := Option.map_eq_some_iff.mp found
          cases same
          exact inductionHypothesis.cons_cons name
        · cases found

theorem of_servable (sound : Sound truth live before) (member : target ∈ live) {name : String}
    {kept : FieldValue String} (served : (name, kept) ∈ servable before target) :
    (name, .empty) ∈ target.selector.resolved ∧
      truth.Remembers ⟨target.cls, target.id, name, kept⟩ := by
  have valid := sound.wellFormed member
  obtain ⟨wanted, plain, cached⟩ := mem_servable_iff.mp served
  obtain ⟨sub, selected⟩ := Selector.exists_mem_resolved (valid.selected wanted)
  rw [(Selector.mem_resolved_iff valid.distinct).mp selected] at plain
  cases Selector.isEmpty_iff.mp plain
  refine ⟨selected, ?_⟩
  obtain ⟨⟨cls, id, field, stored⟩, inCache, rfl⟩ := Option.map_eq_some_iff.mp cached
  have keyed := List.find?_some inCache
  simp only [Bool.and_eq_true, beq_iff_eq] at keyed
  obtain ⟨⟨rfl, rfl⟩, rfl⟩ := keyed
  exact sound.cache _ (List.mem_of_find?_eq_some inCache)

theorem sweepPool {pool swept : List Target} (sound : Sound truth (pool ++ rest) before)
    (done : Yields context (Run.sweepPool pool) before swept after) :
    Sound truth (swept ++ rest) after ∧ before.Keeps after := by
  induction pool generalizing before swept rest with
  | nil =>
      obtain ⟨rfl, rfl⟩ := yields_pure_iff.mp done
      exact ⟨sound, .refl _⟩
  | cons target others inductionHypothesis =>
      simp only [Run.sweepPool, yields_bind_iff, yields_get_iff, yields_pure_iff] at done
      obtain ⟨_, begun, ⟨rfl, rfl⟩, continued, middle, first, swept, _, remaining, rfl, rfl⟩ := done
      have valid := sound.wellFormed List.mem_cons_self
      have names := sublist_servable begun target
      obtain ⟨soundMiddle, keeps⟩ := sound.resolveCached (names.nodup valid.nodup)
        (fun name kept served => ⟨names.subset (List.mem_map.mpr ⟨_, served, rfl⟩),
          sound.of_servable List.mem_cons_self served⟩) first
      have moved : Sound truth (others ++ (continued :: rest)) middle :=
        soundMiddle.perm List.perm_middle.symm
      obtain ⟨soundAfter, keepsToo⟩ := inductionHypothesis moved remaining
      exact ⟨soundAfter.perm List.perm_middle, keeps.trans keepsToo⟩

theorem sweepPools {pools swept : List (ClassId × List Target)}
    (sound : Sound truth (pools.flatMap Prod.snd ++ rest) before)
    (done : Yields context (Run.sweepPools pools) before swept after) :
    Sound truth (swept.flatMap Prod.snd ++ rest) after ∧ before.Keeps after := by
  induction pools generalizing before swept rest with
  | nil =>
      obtain ⟨rfl, rfl⟩ := yields_pure_iff.mp done
      exact ⟨sound, .refl _⟩
  | cons entry others inductionHypothesis =>
      obtain ⟨cls, pool⟩ := entry
      simp only [Run.sweepPools, yields_bind_iff, yields_pure_iff] at done
      obtain ⟨continued, middle, first, swept, _, remaining, rfl, rfl⟩ := done
      simp only [List.flatMap_cons, List.append_assoc] at sound ⊢
      obtain ⟨soundMiddle, keeps⟩ := sound.sweepPool first
      obtain ⟨soundAfter, keepsToo⟩ :=
        inductionHypothesis (soundMiddle.perm (perm_append_swap _ _ _)) remaining
      exact ⟨soundAfter.perm (perm_append_swap _ _ _), keeps.trans keepsToo⟩

theorem filter_active (sound : Sound truth (live ++ rest) before) :
    Sound truth (live.filter Target.isActive ++ rest) before := by
  induction live generalizing rest with
  | nil => exact sound
  | cons target others inductionHypothesis =>
      have moved := inductionHypothesis (sound.active.perm (perm_append_swap _ _ _))
      rw [← List.singleton_append, List.filter_append, List.append_assoc]
      exact moved.perm (perm_append_swap _ _ _)

end Sound

end EntityResolver
