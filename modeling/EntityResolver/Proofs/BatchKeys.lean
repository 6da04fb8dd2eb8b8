import EntityResolver.Proofs.Evaluation.Fetching
import EntityResolver.Proofs.PackedId
import EntityResolver.Proofs.Run.Reports

/-!
# Keys of batches

The ids of a batch are sent as keys, and the records of a keyed response stand under these keys. A
tuple is written with commas between its parts and escapes nothing, so that its key does not tell a
comma inside a part from one between two parts. Ids that differ in more than that have different
keys, and then no record is read for two of them.
-/

set_option autoImplicit false

namespace EntityResolver

namespace IdListSpec

/-- Stands between the parts of a tuple. -/
def comma : Char := ','

def parted (c : Char) : Char :=
  if c = comma then PackedId.separator else c

/-- What the key of an id shows of the id. -/
def shown : IdListSpec → String → List Char
  | .elementary _, id => id.toList
  | .tuple _, id => id.toList.map parted

variable {spec : IdListSpec} {id one other keyOne keyOther : String} {c : Char}
variable {text texts chars : List Char} {parts others : List (List Char)}

theorem parted_of_ne (plain : c ≠ comma) : parted c = c := if_neg plain

theorem shown_of_plain (plain : comma ∉ id.toList) : spec.shown id = id.toList := by
  cases spec with
  | elementary param => rfl
  | tuple param =>
      have kept (c : Char) (member : c ∈ id.toList) : parted c = c :=
        parted_of_ne fun same => plain (same ▸ member)
      rw [shown, List.map_congr_left kept, List.map_id']

theorem intercalate_pushFront :
    [comma].intercalate (PackedId.pushFront c parts) = c :: [comma].intercalate parts := by
  cases parts with
  | nil => rfl
  | cons part rest => cases rest <;> rfl

theorem intercalate_empty_cons (nonempty : parts ≠ []) :
    [comma].intercalate ([] :: parts) = comma :: [comma].intercalate parts := by
  cases parts with
  | nil => exact absurd rfl nonempty
  | cons part rest => rfl

theorem splitOn_cons_self :
    (comma :: text).splitOn comma = [] :: text.splitOn comma := by
  simp [List.splitOn, List.splitOnP_cons_eq_if_modifyHead]

theorem splitOn_cons_of_ne (plain : c ≠ comma) :
    (c :: text).splitOn comma = PackedId.pushFront c (text.splitOn comma) := by
  have nonempty : text.splitOn comma ≠ [] := List.splitOnP_ne_nil _ _
  simp only [List.splitOn, List.splitOnP_cons_eq_if_modifyHead] at nonempty ⊢
  rw [if_neg (by simpa using plain)]
  cases split : text.splitOnP (· == comma) with
  | nil => exact absurd split nonempty
  | cons part rest => rfl

theorem unpackChars_parted (done : PackedId.unpackChars chars = .ok parts) :
    PackedId.unpackChars (chars.map parted) = .ok (([comma].intercalate parts).splitOn comma) := by
  have escaped : parted PackedId.escape = PackedId.escape := rfl
  have bar : parted PackedId.separator = PackedId.separator := rfl
  fun_induction PackedId.unpackChars chars generalizing parts with
  | case1 =>
      cases done
      rfl
  | case2 => cases done
  | case3 c rest needed inductionHypothesis =>
      obtain ⟨others, doneThere, rfl⟩ := map_eq_ok_iff.mp done
      have plain : c ≠ comma := by
        rintro rfl
        cases needed
      rw [List.map_cons, List.map_cons, escaped, parted_of_ne plain,
        PackedId.unpackChars_escaped needed, inductionHypothesis doneThere, intercalate_pushFront,
        splitOn_cons_of_ne plain]
      rfl
  | case4 => cases done
  | case5 rest unescaped inductionHypothesis =>
      obtain ⟨others, doneThere, rfl⟩ := map_eq_ok_iff.mp done
      have nonempty := List.ne_nil_of_length_eq_add_one
        (PackedId.sound_of_unpackChars doneThere).2.2
      rw [List.map_cons, bar, PackedId.unpackChars_separator, inductionHypothesis doneThere,
        intercalate_empty_cons nonempty, splitOn_cons_self]
      rfl
  | case6 c rest unescaped joined inductionHypothesis =>
      obtain ⟨others, doneThere, rfl⟩ := map_eq_ok_iff.mp done
      rw [List.map_cons, intercalate_pushFront]
      by_cases plain : c = comma
      · subst plain
        rw [parted, if_pos rfl, PackedId.unpackChars_separator, inductionHypothesis doneThere,
          splitOn_cons_self]
        rfl
      · have unneeded : PackedId.needsEscape c = false := by
          simp [PackedId.needsEscape, unescaped, joined]
        rw [parted_of_ne plain, PackedId.unpackChars_plain unneeded, inductionHypothesis doneThere,
          splitOn_cons_of_ne plain]
        rfl

/-- Two ids have the same text in a tuple exactly if the same of them is shown. -/
theorem intercalate_eq_iff {left right : List Char} (first : PackedId.unpackChars left = .ok parts)
    (second : PackedId.unpackChars right = .ok others) :
    [comma].intercalate parts = [comma].intercalate others ↔
      left.map parted = right.map parted := by
  have leftParted := unpackChars_parted first
  have rightParted := unpackChars_parted second
  have joined (text : List Char) : [comma].intercalate (text.splitOn comma) = text :=
    List.intercalate_splitOn comma
  constructor
  · intro same
    rw [← (PackedId.sound_of_unpackChars leftParted).2.1,
      ← (PackedId.sound_of_unpackChars rightParted).2.1, same]
  · intro same
    rw [same, rightParted] at leftParted
    rw [← joined ([comma].intercalate parts), ← Except.ok.inj leftParted, joined]

theorem toList_tuple (parts : List String) :
    ("(" ++ ",".intercalate parts ++ ")").toList =
      '(' :: ([comma].intercalate (parts.map String.toList) ++ [')']) := by
  simp [String.toList_append, String.toList_intercalate, comma]

theorem key_eq_iff (first : spec.key one = .ok keyOne) (second : spec.key other = .ok keyOther) :
    keyOne = keyOther ↔ spec.shown one = spec.shown other := by
  cases spec with
  | elementary param =>
      cases first
      cases second
      exact String.toList_inj.symm
  | tuple param =>
      obtain ⟨parts, unpacked, same⟩ := bind_eq_ok_iff.mp first
      obtain ⟨others, unpackedToo, sameToo⟩ := bind_eq_ok_iff.mp second
      cases same
      cases sameToo
      rw [← String.toList_inj, toList_tuple, toList_tuple, List.cons_inj_right,
        List.append_left_inj]
      exact intercalate_eq_iff (PackedId.unpackId_none_iff.mp unpacked)
        (PackedId.unpackId_none_iff.mp unpackedToo)

end IdListSpec

namespace BatchGetter

open Run

variable {method : BatchGetter} {context : RunContext} {selector : Selector} {records : Json}
variable {ids : List String} {results : FetchResults} {before after : RunState}

def Tells (method : BatchGetter) (context : RunContext) (selector : Selector) (records : Json)
    (key : String) (outcome : FetchOutcome) : Prop :=
  ∃ earlier later,
    Yields context (readUnderId method selector (records.member? key)) earlier outcome later

theorem tells_of_readKeyed
    (done : Yields context (method.readKeyed selector records ids) before results after) :
    ∀ entry ∈ results, ∃ key, method.ids.key entry.1 = .ok key ∧
      method.Tells context selector records key entry.2 := by
  induction ids generalizing before results with
  | nil =>
      obtain ⟨rfl, rfl⟩ := yields_pure_iff.mp done
      exact nofun
  | cons id rest inductionHypothesis =>
      rw [Served.readKeyed_cons, yields_ofExcept_bind_iff] at done
      obtain ⟨key, keyed, done⟩ := done
      obtain ⟨outcome, middle, read, done⟩ := yields_bind_iff.mp done
      obtain ⟨others, _, remaining, done⟩ := yields_bind_iff.mp done
      obtain ⟨rfl, rfl⟩ := yields_pure_iff.mp done
      exact List.forall_mem_cons.mpr
        ⟨⟨key, liftError_eq_ok_iff.mp keyed, before, middle, read⟩, inductionHypothesis remaining⟩

/-- A key is shared by the ids of which it shows the same, and by no others: an id in which no comma
stands is shown as a whole. If it shows no two ids of a batch as the same, then no record of a keyed
response is read for two of them. -/
theorem keys_identify (spec : IdListSpec) :
    (∀ one other keyOne keyOther,
      spec.key one = .ok keyOne → spec.key other = .ok keyOther →
      (keyOne = keyOther ↔ spec.shown one = spec.shown other)) ∧
    (∀ id, IdListSpec.comma ∉ id.toList ∨ spec = .elementary spec.param →
      spec.shown id = id.toList) ∧
    ∀ (method : BatchGetter) (context : RunContext) (ids : List String) (selector : Selector)
      (before after : RunState) (results : FetchResults),
      method.ids = spec → method.layout = .keyed →
      (∀ one ∈ ids, ∀ other ∈ ids, spec.shown one = spec.shown other → one = other) →
      Yields context (method.fetchAll ids selector) before results after →
      ∃ params members,
        method.params ids selector = .ok params ∧
        context.remote before.calls ⟨method.path, params⟩ = .ok (.object members) ∧
        OrderedMap.keys results = ids ∧
        (∀ entry ∈ results, ∃ key, spec.key entry.1 = .ok key ∧
          method.Tells context selector (.object members) key entry.2) ∧
        ∀ one ∈ results, ∀ other ∈ results, ∀ key,
          spec.key one.1 = .ok key → spec.key other.1 = .ok key → one.1 = other.1 := by
  refine ⟨fun one other keyOne keyOther => IdListSpec.key_eq_iff, fun id => ?_, ?_⟩
  · rintro (plain | elementary)
    · exact IdListSpec.shown_of_plain plain
    · rw [elementary]
      rfl
  · rintro method context ids selector before after results rfl keyed apart done
    obtain ⟨params, prepared, done⟩ := yields_ofExcept_bind_iff.mp done
    obtain ⟨response, middle, answered, done⟩ := yields_bind_iff.mp done
    obtain ⟨replied, rfl⟩ := yields_callOrFail_iff.mp answered
    simp only [keyed] at done
    cases response with
    | object members =>
        have told := tells_of_readKeyed done
        have keys : OrderedMap.keys results = ids := keys_readKeyed done
        have asked (entry : String × FetchOutcome) (member : entry ∈ results) : entry.1 ∈ ids :=
          keys ▸ List.mem_map_of_mem member
        refine ⟨params, members, liftError_eq_ok_iff.mp prepared, replied, keys, told, ?_⟩
        intro one member other memberToo key first second
        exact apart _ (asked one member) _ (asked other memberToo)
          ((IdListSpec.key_eq_iff first second).mp rfl)
    | _ => exact absurd done not_yields_throw

end BatchGetter

namespace Groups

open Run

def cls : ClassId := ⟨0⟩

/-- The id of a group has two parts, and all groups are answered from the same records. -/
def groupClass : EntityClass :=
  { id := cls
    name := "Group"
    fields := [⟨"name", cls, .scalar .string, false, false⟩]
    searchItem := none
    foundField := none
    defaultSelector := .empty }

def getter : BatchGetter :=
  { path := "groups/groups"
    cls := cls
    ids := .tuple "group_ids"
    pickers := .field "name" (.scalar .raw "name") .none
    sendsFields := false }

def context (records : OrderedMap Json) : RunContext where
  catalog := { Catalog.empty ⟨[groupClass]⟩ with getters := [.batch getter] }
  remote := fun _ _ => .ok (.object records)
  lang := .pl
  roundLimit := 0

def named : Selector := .nested "name" .empty .empty

def record (name : String) : Json := .object [("name", .str name)]

def values (name : String) : FieldValues := [("name", .scalar (.ofJson (.str name)))]

/-- A comma in the first part of one group and in the second part of another: both are given the one
record that there is. -/
theorem key_collides :
    "a|b,c" ≠ "a,b|c" ∧
    getter.ids.key "a|b,c" = .ok "(a,b,c)" ∧ getter.ids.key "a,b|c" = .ok "(a,b,c)" ∧
    ∃ state, Yields (context [("(a,b,c)", record "d")])
      (getter.fetchAll ["a|b,c", "a,b|c"] named) { calls := [] }
      [("a|b,c", .found (values "d")), ("a,b|c", .found (values "d"))] state :=
  ⟨by decide, by cbv, by cbv, _, rfl⟩

/-- Two groups with the same first part. -/
theorem keys_identify_two :
    getter.layout = .keyed ∧
    (∀ one ∈ ["12|1", "12|2"], ∀ other ∈ ["12|1", "12|2"],
      getter.ids.shown one = getter.ids.shown other → one = other) ∧
    ∃ results state,
      Yields (context [("(12,1)", record "a"), ("(12,2)", record "b")])
        (getter.fetchAll ["12|1", "12|2"] named) { calls := [] } results state ∧
      ∀ one ∈ results, ∀ other ∈ results, ∀ key,
        getter.ids.key one.1 = .ok key → getter.ids.key other.1 = .ok key → one.1 = other.1 := by
  have apart : ∀ one ∈ ["12|1", "12|2"], ∀ other ∈ ["12|1", "12|2"],
      getter.ids.shown one = getter.ids.shown other → one = other := by decide
  have done : Yields (context [("(12,1)", record "a"), ("(12,2)", record "b")])
      (getter.fetchAll ["12|1", "12|2"] named) { calls := [] }
      [("12|1", .found (values "a")), ("12|2", .found (values "b"))] _ := rfl
  obtain ⟨_, _, _, _, _, _, distinct⟩ :=
    (BatchGetter.keys_identify getter.ids).2.2 getter _ _ _ _ _ _ rfl rfl apart done
  exact ⟨rfl, apart, _, _, done, distinct⟩

end Groups

end EntityResolver
