import BuildLog.Json.Record

namespace BuildLog

inductive DetailForm where
  | link
  | rawHtml
  | measurement
deriving DecidableEq

namespace DetailForm

def name : DetailForm → String
  | link => "link"
  | rawHtml => "raw_html"
  | measurement => "TalosResult"

def all : List DetailForm := [link, rawHtml, measurement]

def toJson (f : DetailForm) : Json := .string f.name

def read : Json.Reader DetailForm := Json.readVariant (all.map fun f => (f.name, f))

end DetailForm

structure Detail where
  form : DetailForm
  title : Option String
  value : Json
  url : Option String

namespace Detail

def link (title : Option String) (value url : String) : Detail :=
  ⟨.link, title, .string value, some url⟩

def rawHtml (title : Option String) (value : String) : Detail :=
  ⟨.rawHtml, title, .string value, none⟩

/-- A field that is left out if there is no value. -/
def optionalField (name : String) : Option String → List (String × Json)
  | some s => [(name, .string s)]
  | none => []

def toJson (d : Detail) : Json :=
  .ofFields (
    ("content_type", d.form.toJson) :: optionalField "title" d.title ++
      ("value", d.value) :: optionalField "url" d.url)

def record : Json.Record (DetailForm × Option String × Json × Option String × Unit) :=
  .field "content_type" DetailForm.read none false <|
  .field "title" (Json.readOptional Json.readText) (some none) true <|
  .field "value" (Json.readValue (Json.maxDepth - 1)) none false <|
  .field "url" (Json.readOptional Json.readText) (some none) true .done

def read : Json.Reader Detail := fun s => do
  let ((form, title, value, url, _), r) ← record.read "JobDetail" s
  return (⟨form, title, value, url⟩, r)

end Detail
end BuildLog
