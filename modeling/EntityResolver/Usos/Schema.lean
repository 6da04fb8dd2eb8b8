import EntityResolver.Schema.Build

/-!
The classes of the USOS API: people, courses, exams and what belongs to them at a university.
-/

set_option autoImplicit false

namespace EntityResolver.Usos

def scalar (name : String) (type : DataType) : FieldDecl :=
  { name, kind := .scalar type }

def text (name : String) : FieldDecl :=
  scalar name .string

def homepage : FieldDecl :=
  scalar "homepage_url" (.optional .url)

def profile : FieldDecl :=
  scalar "profile_url" .url

def one (name target : String) : FieldDecl :=
  { name, kind := .entity target }

def oneOrNone (name target : String) : FieldDecl :=
  { name, kind := .optionalEntity target }

def many (name target : String) : FieldDecl :=
  { name, kind := .entityList target }

def byDefault (decl : FieldDecl) : FieldDecl :=
  { decl with isDefault := true }

/-- The field may be absent from a response. -/
def variant (decl : FieldDecl) : FieldDecl :=
  { decl with isVariant := true }

def name : FieldDecl :=
  byDefault (text "name")

def people : List ClassDecl := [
  { name := "Installation"
    fields := [name, scalar "base_url" .url, text "version",
      scalar "contact_emails" (.list .email)] },
  { name := "Card"
    fields := [byDefault (text "barcode_number"), text "contact_chip_uid",
      text "contactless_chip_uid", scalar "type" (.enumeration ["student", "phd", "staff"]),
      scalar "expiration_date" .date] },
  { name := "Building"
    fields := [name, scalar "location" (.optional .coords)] },
  { name := "Programme"
    fields := [name, text "mode_of_studies", text "level_of_studies", text "duration",
      text "professional_status"] },
  { name := "Room"
    fields := [byDefault (text "number"), byDefault (one "building" "Building"),
      scalar "capacity" (.optional .int)] },
  { name := "User"
    isSearchable := true
    fields := [byDefault (text "first_name"), byDefault (text "last_name"),
      scalar "sex" (.enumeration ["male", "female"]), profile, homepage,
      scalar "phone_numbers" (.list .phoneNumber), scalar "mobile_numbers" (.list .phoneNumber),
      oneOrNone "room" "Room", many "authored_theses" "Thesis"] }]

def exams : List ClassDecl := [
  { name := "Grade"
    fields := [byDefault (text "symbol"), name, one "grade_type" "GradeType",
      scalar "passes" .bool, scalar "decimal_value" .decimal, scalar "order_key" .int] },
  { name := "GradeType"
    fields := [name, many "values" "Grade"] },
  { name := "Exam"
    fields := [name, many "exam_grades" "ExamGrade", many "sessions" "ExamSession",
      one "course_edition" "CourseEdition", scalar "editable" .bool,
      one "grade_type" "GradeType"] },
  { name := "ExamSession"
    fields := [name, scalar "number" .int, text "status", scalar "deadline" .dateTime] },
  { name := "ExamGrade"
    fields := [byDefault (one "grade" "Grade"), one "exam_session" "ExamSession", text "comment",
      one "course_edition" "CourseEdition", scalar "modified_date" .dateTime,
      one "modified_by" "User"] }]

def organisation : List ClassDecl := [
  { name := "Term"
    fields := [name, scalar "order_key" .int, scalar "start_date" .date, scalar "end_date" .date] },
  { name := "Faculty"
    isSearchable := true
    fields := [name, profile, homepage, oneOrNone "parent" "Faculty"] },
  { name := "Thesis"
    isSearchable := true
    fields := [name,
      scalar "type" (.openEnumeration ["doctoral", "master", "licentiate", "engineer"]),
      many "authors" "User", many "supervisors" "User", one "faculty" "Faculty"] },
  { name := "Course"
    isSearchable := true
    fields := [name, profile, homepage, scalar "currently_conducted" .bool,
      one "faculty" "Faculty", text "description", text "bibliography", text "learning_outcomes",
      text "assessment_criteria", text "practical_placement"] }]

def courseTests : List ClassDecl := [
  { name := "CourseTestAlgorithm"
    fields := [variant { name := "dependencies", kind := .entityMap "CourseTestNode" },
      variant (text "variables"), variant (text "source"), variant (text "description")] },
  { name := "CourseTestPoints"
    fields := [byDefault (scalar "points" (.optional .decimal)), text "comment",
      scalar "last_modified" (.optional .dateTime), one "grader" "User"] },
  { name := "CourseTestGrade"
    fields := [one "grade" "Grade", text "comment", scalar "last_modified" (.optional .dateTime),
      one "grader" "User"] },
  { name := "CourseTestNode"
    fields := [name, many "subnodes" "CourseTestNode",
      scalar "type" (.enumeration ["root", "folder", "task", "grade"]), scalar "order_key" .int,
      oneOrNone "parent" "CourseTestNode", variant (text "description"),
      variant (oneOrNone "course_edition" "CourseEdition"), variant (scalar "min_points" .decimal),
      variant (scalar "max_points" .decimal), variant (scalar "precision" .int),
      variant (oneOrNone "test_points" "CourseTestPoints"),
      variant (oneOrNone "grade_type" "GradeType"),
      variant (oneOrNone "test_grade" "CourseTestGrade"),
      variant (oneOrNone "algorithm" "CourseTestAlgorithm")] }]

def courses : List ClassDecl := [
  { name := "CourseEdition"
    fields := [byDefault (one "course" "Course"), byDefault (one "term" "Term"), profile, homepage,
      many "coordinators" "User", many "lecturers" "User", many "participants" "User",
      text "description", text "bibliography", text "notes", many "course_units" "CourseUnit"] },
  { name := "ClassType"
    fields := [name] },
  { name := "CourseUnit"
    fields := [byDefault (one "course_edition" "CourseEdition"),
      byDefault (one "class_type" "ClassType"), profile, homepage, text "learning_outcomes",
      text "assessment_criteria", text "topics", text "teaching_methods", text "bibliography",
      many "groups" "CourseGroup"] },
  { name := "CourseGroup"
    fields := [byDefault (one "course_unit" "CourseUnit"), byDefault (scalar "group_number" .int),
      scalar "homepage_url" .url, many "lecturers" "User", many "participants" "User",
      text "description", text "literature"] }]

def classes : List ClassDecl :=
  people ++ exams ++ organisation ++ courseTests ++ courses

def schema : Except SchemaError Schema :=
  Schema.ofDecls classes

end EntityResolver.Usos
