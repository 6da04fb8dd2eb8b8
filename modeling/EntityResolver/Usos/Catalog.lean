import EntityResolver.Catalog.Basic
import EntityResolver.Usos.Pickers
import EntityResolver.Usos.Schema

/-!
The methods of the USOS API.
-/

set_option autoImplicit false

namespace EntityResolver.Usos

def get (path : String) (cls : ClassId) (id : IdSpec) (pickers : FieldPickers)
    (sendsFields : Bool := true) (extra : Params := []) : Registration :=
  .getter (.single { path, cls, id, pickers, sendsFields, extra })

/-- A call for many entities, whose response is keyed by id. -/
def getMany (path : String) (cls : ClassId) (ids : IdListSpec) (pickers : FieldPickers)
    (limit : Option Nat := none) (sendsFields : Bool := true) : Registration :=
  .getter (.batch { path, cls, ids, pickers, sendsFields, limit })

/-- A call for many entities, whose response is a list of records. -/
def getListed (path : String) (cls : ClassId) (ids : IdListSpec) (pickers : EntityPickers) :
    Registration :=
  .getter (.batch
    { path, cls, ids, pickers := pickers.fields, layout := .listed pickers.id
      sendsFields := false })

def search (path : String) (cls : ClassId) (picker : Picker)
    (fieldsMode : SearchFieldsMode := .full) (queryParam : String := "query") : Registration :=
  .search { path, cls, picker, fieldsMode, queryParam }

/-- A call that lists entities at the end of some steps. -/
def list (domain path : String) (cls : ClassId) (pickers : EntityPickers) (segments : List String)
    (extra : Params := []) (wrapper : Option String := none) (sendsFields : Bool := true) :
    Registration :=
  .list
    { domain, path, cls, pickers, steps := ListStep.ofSegments segments, extra, wrapper
      sendsFields }

/-- What a wrapper puts a selector between. -/
def braces : String := "\x7b\x7d"

/-- The fields of each node of a tree of course tests. They cannot be put as a selector of nested
fields, so this set is asked for. -/
def treeFields : String :=
  "node_id|parent_id|order|name|type|course_edition|description|points_min|points_max|" ++
    "points_precision|grade_type|subnodes"

def methods (schema : Schema) : Except SchemaError (List Registration) := do
  let programmes ← schema.classId "Programme"
  let users ← schema.classId "User"
  let faculties ← schema.classId "Faculty"
  let terms ← schema.classId "Term"
  let courses ← schema.classId "Course"
  let courseEditions ← schema.classId "CourseEdition"
  let courseUnits ← schema.classId "CourseUnit"
  let classTypes ← schema.classId "ClassType"
  let courseGroups ← schema.classId "CourseGroup"
  let rooms ← schema.classId "Room"
  let buildings ← schema.classId "Building"
  let theses ← schema.classId "Thesis"
  let nodes ← schema.classId "CourseTestNode"
  let gradeTypes ← schema.classId "GradeType"
  let examSessions ← schema.classId "ExamSession"
  let examGrades ← schema.classId "ExamGrade"
  let exams ← schema.classId "Exam"
  let cards ← schema.classId "Card"
  let installations ← schema.classId "Installation"
  let authoredTheses : FieldPickers :=
    .ofList [("authored_theses", under .list "authored_theses" thesis)]
  return [
    get "services/progs/programme" programmes (.elementary "programme_id") programme.fields,
    getMany "services/progs/programmes" programmes (.elementary "programme_ids") programme.fields,
    get "services/users/user" users (.elementary "user_id") user.fields,
    getMany "services/users/users" users (.elementary "user_ids") user.fields (some 30),
    .currentUser { path := "services/users/user", cls := users, pickers := user },
    get "services/fac/faculty" faculties (.elementary "fac_id") faculty.fields,
    getMany "services/fac/faculties" faculties (.elementary "fac_ids") faculty.fields (some 100),
    get "services/terms/term" terms (.elementary "term_id") term false,
    getMany "services/terms/terms" terms (.elementary "term_ids") term none false,
    get "services/courses/course" courses (.elementary "course_id")
      (course.fields.merge courseDetails),
    getMany "services/courses/courses" courses (.elementary "course_ids") course.fields,
    get "services/courses/course_edition" courseEditions (.composite ["course_id", "term_id"])
      (courseEdition.fields.merge courseEditionDetails),
    get "services/courses/unit" courseUnits (.elementary "unit_id")
      (courseUnit.merge courseUnitDetails),
    getMany "services/courses/units" courseUnits (.elementary "unit_ids") courseUnit,
    getMany "services/courses/classtypes_index" classTypes (.elementary "_")
      (.ofList [("name", byLang "name")]),
    get "services/groups/group" courseGroups (.composite ["course_unit_id", "group_number"])
      (courseGroup.fields.merge courseGroupDetails),
    getMany "services/groups/groups" courseGroups (.tuple "group_ids") courseGroup.fields,
    get "services/geo/room" rooms (.elementary "room_id") room.fields,
    getMany "services/geo/rooms" rooms (.elementary "room_ids") room.fields,
    get "services/geo/building2" buildings (.elementary "building_id") building.fields,
    getMany "services/geo/buildings2" buildings (.elementary "building_ids") building.fields,
    get "services/theses/thesis" theses (.elementary "ths_id") thesis.fields,
    getMany "services/theses/theses" theses (.elementary "ths_ids") thesis.fields,
    get "services/theses/user" users (.elementary "user_id") authoredTheses,
    getMany "services/theses/users" users (.elementary "user_ids") authoredTheses,
    search "services/users/search2" users (under .single "user" user),
    search "services/theses/search" theses (under .single "thesis" thesis),
    search "services/fac/search" faculties (inlined faculty) .partly,
    search "services/courses/search" courses (refersTo "course_id") .absent "name",
    list "student" "services/groups/participant" courseGroups courseGroup ["groups", "*", "*"]
      [("active_terms", "true")],
    list "student_all" "services/groups/participant" courseGroups courseGroup ["groups", "*", "*"]
      [("active_terms", "false")],
    list "user" "services/courses/user" courseEditions courseEdition ["course_editions", "*", "*"]
      [("active_terms_only", "true")] (some ("course_editions[" ++ braces ++ "]")),
    list "user_all" "services/courses/user" courseEditions courseEdition
      ["course_editions", "*", "*"]
      [("active_terms_only", "false")] (some ("course_editions[" ++ braces ++ "]")),
    list "student" "services/progs/student" programmes programme ["*", "programme"]
      [("active_only", "true")] (some ("programme[" ++ braces ++ "]")),
    list "student_all" "services/progs/student" programmes programme ["*", "programme"]
      [("active_only", "false")] (some ("programme[" ++ braces ++ "]")),
    get "services/crstests/node" nodes (.elementary "node_id")
      (courseTestNode.fields.merge courseTestNodeDetails) true [("recursive", "false")],
    getListed "services/crstests/user_points" nodes (.elementary "node_ids") userPoints,
    getListed "services/crstests/user_grades" nodes (.elementary "node_ids") userGrades,
    get "services/crstests/node" nodes (.elementary "node_id") courseTestTree false
      [("recursive", "true"), (fieldsParam, treeFields)],
    list "student_all" "services/crstests/participant" nodes courseTest ["tests", "*", "*"]
      [] none false,
    get "services/grades/grade_type" gradeTypes (.elementary "grade_type_id") gradeType.fields,
    get "services/examrep/exam_session" examSessions (.composite ["exam_id", "number"])
      examSession.fields,
    get "services/grades/grade" examGrades (.composite ["exam_id", "exam_session_number"])
      (examGrade.fields.merge examGradeDetails),
    get "services/grades/exam" exams (.elementary "exam_id")
      (.ofList [("exam_grades", .inlineList examGrade.id examGrade.fields)]),
    get "services/examrep/exam" exams (.elementary "id") (exam.fields.merge examDetails),
    list "user" "services/cards/user" cards card ["*"] [] none false,
    list "public" "services/apisrv/installations" installations installation ["*"] [] none false,
    .serverTime "services/apisrv/now"]

def catalog : Except ResolveError Catalog := do
  let schema ← liftError .schema schema
  Catalog.ofRegistrations schema (← liftError .schema (methods schema))

end EntityResolver.Usos
