import EntityResolver.Catalog.Picker

/-!
Where the fields of USOS entities are found in responses.

A set of pickers named `…Details` belongs to the calls that serve one entity; the other sets are
served for one entity and for many alike.
-/

set_option autoImplicit false

namespace EntityResolver.Usos

def raw (key : String) : Picker := .scalar .raw key

def byLang (key : String) : Picker := .scalar .byLang key

def link (key : String) : Picker := .scalar .url key

def profileLink (key : String) : Picker := .scalar .profileUrl key

def decimal (key : String) : Picker := .scalar .decimal key

def date (key : String) : Picker := .scalar .date key

def dateTime (key : String) : Picker := .scalar .dateTime key

def refersTo (key : String) : Picker := .reference (.elementary key)

def withId (key : String) (fields : List (String × Picker)) : EntityPickers :=
  ⟨.elementary key, .ofList fields⟩

def withIds (keys : List String) (fields : List (String × Picker)) : EntityPickers :=
  ⟨.composite keys, .ofList fields⟩

def and (pickers : EntityPickers) (fields : List (String × Picker)) : EntityPickers :=
  ⟨pickers.id, pickers.fields.merge (.ofList fields)⟩

/-- The entity stands among the keys of the response. -/
def inlined (pickers : EntityPickers) : Picker := .inline pickers.id pickers.fields

/-- Entities stand under a key, whose parts can be asked for. -/
def under (shape : NestedShape) (key : String) (pickers : EntityPickers)
    (lifts : List (String × String) := []) : Picker :=
  .nested shape key pickers.id pickers.fields true lifts false

/-- Entities stand under a key that is asked for as a whole. -/
def wholly (shape : NestedShape) (key : String) (pickers : EntityPickers)
    (lifts : List (String × String) := []) (unique : Bool := false) : Picker :=
  .nested shape key pickers.id pickers.fields false lifts unique

def room : EntityPickers :=
  withId "id" [
    ("number", raw "number"),
    ("building", inlined (withId "building_id" [("name", byLang "building_name")])),
    ("capacity", raw "capacity")]

def building : EntityPickers :=
  withId "id" [("name", byLang "name"), ("location", .scalar .coords "location")]

def pathFaculty : EntityPickers :=
  withId "id" [("name", byLang "name"), ("profile_url", profileLink "profile_url")]

def faculty : EntityPickers :=
  and pathFaculty [
    ("homepage_url", link "homepage_url"),
    ("parent", under .ancestors "path" pathFaculty)]

def userName : EntityPickers :=
  withId "id" [("first_name", raw "first_name"), ("last_name", raw "last_name")]

def user : EntityPickers :=
  and userName [
    ("sex", .scalar (.mapping [(.str "M", .str "male"), (.str "F", .str "female")] false) "sex"),
    ("profile_url", profileLink "profile_url"),
    ("homepage_url", link "homepage_url"),
    ("phone_numbers", .scalar (.mapping [(.null, .array [])] true) "phone_numbers"),
    ("mobile_numbers", raw "mobile_numbers"),
    ("room", under .single "room" room)]

/-- A course whose keys stand flat in other objects. -/
def flatCourse : Picker :=
  inlined (withId "course_id" [("name", byLang "course_name")])

/-- A course edition whose keys stand flat in units and groups. -/
def flatCourseEdition : Picker :=
  inlined (withIds ["course_id", "term_id"] [("course", flatCourse), ("term", refersTo "term_id")])

def courseGroup : EntityPickers :=
  withIds ["course_unit_id", "group_number"] [
    ("course_unit", inlined (withId "course_unit_id" [
      ("course_edition", flatCourseEdition),
      ("class_type", inlined (withId "class_type_id" [("name", byLang "class_type")]))])),
    ("group_number", raw "group_number"),
    ("lecturers", wholly .list "lecturers" userName),
    ("participants", wholly .list "participants" userName),
    ("homepage_url", link "group_url")]

def courseGroupDetails : FieldPickers :=
  .ofList [("description", byLang "group_description"),
    ("literature", byLang "group_literature")]

def thesis : EntityPickers :=
  withId "id" [
    ("type", raw "type"),
    ("name", byLang "titles"),
    ("authors", under .list "authors" user),
    ("supervisors", under .list "supervisors" user),
    ("faculty", under .single "faculty" faculty)]

def programme : EntityPickers :=
  withId "id" [
    ("name", byLang "description"),
    ("mode_of_studies", byLang "mode_of_studies"),
    ("level_of_studies", byLang "level_of_studies"),
    ("duration", byLang "duration"),
    ("professional_status", byLang "professional_status")]

def term : FieldPickers :=
  .ofList [
    ("order_key", raw "order_key"),
    ("name", byLang "name"),
    ("start_date", date "start_date"),
    ("end_date", date "end_date")]

def course : EntityPickers :=
  withId "id" [
    ("name", byLang "name"),
    ("profile_url", profileLink "profile_url"),
    ("homepage_url", link "homepage_url"),
    ("currently_conducted", raw "is_currently_conducted"),
    ("faculty", refersTo "fac_id")]

def courseDetails : FieldPickers :=
  .ofList [
    ("description", byLang "description"),
    ("bibliography", byLang "bibliography"),
    ("learning_outcomes", byLang "learning_outcomes"),
    ("assessment_criteria", byLang "assessment_criteria"),
    ("practical_placement", byLang "practical_placement")]

def testedCourseEdition : EntityPickers :=
  withIds ["course_id", "term_id"] [
    ("course", flatCourse),
    ("term", refersTo "term_id"),
    ("profile_url", profileLink "profile_url"),
    ("homepage_url", link "homepage_url")]

def courseEdition : EntityPickers :=
  and testedCourseEdition [
    ("coordinators", wholly .list "coordinators" userName),
    ("lecturers", wholly .list "lecturers" userName [] true)]

def courseEditionDetails : FieldPickers :=
  .ofList [
    ("participants", wholly .list "participants" userName),
    ("description", byLang "description"),
    ("bibliography", byLang "bibliography"),
    ("notes", byLang "notes"),
    ("course_units", .referenceList "course_units_ids")]

def courseUnit : FieldPickers :=
  .ofList [
    ("profile_url", profileLink "profile_url"),
    ("homepage_url", link "homepage_url"),
    ("class_type", refersTo "classtype_id"),
    ("course_edition", flatCourseEdition)]

def courseUnitDetails : FieldPickers :=
  .ofList [
    ("learning_outcomes", byLang "learning_outcomes"),
    ("assessment_criteria", byLang "assessment_criteria"),
    ("topics", byLang "topics"),
    ("teaching_methods", byLang "teaching_methods"),
    ("bibliography", byLang "bibliography"),
    ("groups", under .list "groups" courseGroup)]

def grade : EntityPickers :=
  withIds ["grade_type_id", "symbol"] [
    ("symbol", raw "symbol"),
    ("name", byLang "name"),
    ("passes", raw "passes"),
    ("decimal_value", decimal "decimal_value"),
    ("order_key", raw "order_key"),
    ("grade_type", refersTo "grade_type_id")]

/-- The names of the kinds of nodes of a course test, and what they are called here. -/
def nodeTypes : List (Json × Json) :=
  [("root", "root"), ("fld", "folder"), ("folder", "folder"), ("pkt", "task"), ("task", "task"),
    ("oc", "grade"), ("grade", "grade")].map fun (written, meant) => (.str written, .str meant)

def courseTest : EntityPickers :=
  withId "node_id" [
    ("name", byLang "name"),
    ("type", .scalar (.mapping nodeTypes false) "type"),
    ("order_key", raw "order"),
    ("description", raw "description"),
    ("course_edition", wholly .single "course_edition" testedCourseEdition),
    ("parent", refersTo "parent_id")]

def courseTestNode : EntityPickers :=
  and courseTest [
    ("min_points", raw "points_min"),
    ("max_points", raw "points_max"),
    ("precision", raw "points_precision"),
    ("grade_type", wholly .single "grade_type" (withId "id" []))]

def courseTestNodeDetails : FieldPickers :=
  .ofList [
    ("algorithm", inlined (withId "node_id" [
      ("dependencies", .referenceMap "dependencies" true),
      ("variables", raw "variables"),
      ("source", raw "algorithm"),
      ("description", raw "description")]))]

def courseTestTree : FieldPickers :=
  courseTestNode.fields.set "subnodes" (under .list "subnodes" courseTestNode)

def userPoints : EntityPickers :=
  withId "node_id" [
    ("test_points", inlined (withId "node_id" [
      ("points", decimal "points"),
      ("comment", raw "comment"),
      ("last_modified", dateTime "last_changed"),
      ("grader", refersTo "grader_id")]))]

/-- The grades of the current user, a record for each node. A grade here carries no type, so its
symbol alone is its id. -/
def userGrades : EntityPickers :=
  withId "node_id" [
    ("test_grade", inlined (withId "node_id" [
      ("grade", under .single "grade" ⟨.elementary "symbol", grade.fields⟩),
      ("comment", raw "private_comment"),
      ("last_modified", dateTime "last_changed"),
      ("grader", refersTo "grader_id")]))]

def gradeType : EntityPickers :=
  withId "id" [
    ("name", byLang "name"),
    ("values", wholly .list "values" grade [("id", "grade_type_id")])]

def examGrade : EntityPickers :=
  withIds ["exam_id", "exam_session_number"] [
    ("grade", inlined (withIds ["grade_type_id", "value_symbol"] [
      ("symbol", raw "value_symbol"),
      ("name", byLang "value_description"),
      ("grade_type", refersTo "grade_type_id")])),
    ("exam_session", .reference (.composite ["exam_id", "exam_session_number"])),
    ("comment", raw "comment"),
    ("modified_date", dateTime "date_modified"),
    ("modified_by", wholly .single "modification_author" userName)]

def examGradeDetails : FieldPickers :=
  .ofList [("course_edition", under .single "course_edition" courseEdition)]

def examSession : EntityPickers :=
  withIds ["exam_id", "number"] [
    ("number", raw "number"),
    ("status", raw "status"),
    ("name", byLang "description"),
    ("deadline", dateTime "deadline")]

def exam : EntityPickers :=
  withId "id" [("name", byLang "description"), ("editable", raw "is_editable")]

def examDetails : FieldPickers :=
  .ofList [
    ("sessions", under .list "sessions" examSession [("id", "exam_id")]),
    ("course_edition", under .single "course"
      (withIds ["id", "term_id"] [("term", refersTo "term_id"), ("course", inlined course)])
      [("term_id", "term_id")])]

def card : EntityPickers :=
  withId "barcode_number" [
    ("barcode_number", raw "barcode_number"),
    ("contact_chip_uid", raw "contact_chip_uid"),
    ("contactless_chip_uid", raw "contactless_chip_uid"),
    ("type", raw "type"),
    ("expiration_date", date "expiration_date")]

def installation : EntityPickers :=
  withId "base_url" [
    ("name", byLang "institution_name"),
    ("base_url", raw "base_url"),
    ("version", raw "version"),
    ("contact_emails", raw "contact_emails")]

end EntityResolver.Usos
