import Vat.Identity.ContainerRef
import Vat.Python.Pattern

/-!
# Packages of a CycloneDX document

The packages that a document lists: their names, versions and container references, and their
package URLs, read or derived. A document has the members that are read, each of the type that
CycloneDX gives it; licenses are left out.

Source: `backend/app/services/sbom.py`, lines 134–360.

## Main definitions

* `CdxComponent`, `CdxDocument`.
* `UrlDecoding`, `plainDecoding`: `urllib.parse.unquote`.
* `derivePurl`, `nameFromPurl`.
* `parseCyclonedx`.
-/

namespace Vat

/-- A component of a document. -/
structure CdxComponent where
  name : Option Str
  version : Option Str
  /-- Names and values. -/
  properties : List (Option Str × Option Str)
  group : Option Str
  purl : Option Str
  /-- `bom-ref` or `bomRef`. -/
  bomRef : Option Str
  language : Option Str

/-- A CycloneDX document. -/
structure CdxDocument where
  components : List CdxComponent
  metadataProperties : List (Option Str × Option Str)
  metadataName : Option Str

/-- A package of a document. -/
structure SbomEntry where
  name : Str
  version : Str
  component : Option Str
  language : Option Str
  purl : Option Str
  purlSource : Option Str
  purlConfidence : Option Str

/-! ### Percent encoding -/

/-- `urllib.parse.unquote`. -/
class UrlDecoding where
  unquote : Str → Str
  unquote_of_notMem : ∀ s : Str, '%' ∉ s → unquote s = s

/-- Text without percent signs. -/
@[reducible] def plainDecoding : UrlDecoding where
  unquote s := s
  unquote_of_notMem _ _ := rfl

/-- A byte as two hexadecimal digits. -/
def hexByte (b : UInt8) : Str :=
  let digit (n : ℕ) : Char := (str "0123456789ABCDEF").getD n '0'
  [digit (b.toNat / 16), digit (b.toNat % 16)]

/-- `urllib.parse.quote`. -/
def quoteUrl (safe s : Str) : Str :=
  s.flatMap fun c =>
    if (c.toNat < 128 ∧ c.isAlphanum) ∨ c ∈ str "_.-~" ∨ c ∈ safe then [c]
    else (String.utf8EncodeChar c).flatMap fun b => '%' :: hexByte b

section General

variable [Unicode] [CharTables] [UrlDecoding]

/-! ### Package URLs -/

omit [Unicode] [CharTables] [UrlDecoding] in
/-- `_extract_component_purl`. -/
def extractComponentPurl (c : CdxComponent) : Option Str :=
  let isPurl (x : Option Str) : Option Str :=
    x.bind fun s => if Str.startsWith (Str.strip s) (str "pkg:") then some (Str.strip s) else none
  isPurl c.purl <|> isPurl c.bomRef

omit [CharTables] in
/-- `_name_from_purl`. -/
def nameFromPurl (purl : Option Str) : Option Str :=
  let purl := Str.orEmpty purl
  if ¬ Str.startsWith purl (str "pkg:") then none
  else
    let body := (Str.split1 '#' (Str.split1 '?' (purl.drop 4)).1).1
    if '/' ∉ body then none
    else
      let (purlType, remainder) := Str.split1 '/' body
      let path := Str.strip (UrlDecoding.unquote (Str.split1 '@' remainder).1)
      let purlType := Unicode.lower (Str.strip purlType)
      if path = [] then none
      else
        match decide (purlType = str "maven"), (path.splitOn '/').filter (· ≠ []) with
        | true, group :: artifact :: _ => some (group ++ str ":" ++ artifact)
        | _, _ =>
          if purlType ∈ ["pypi", "nuget", "gem", "cargo", "apk", "deb"].map str then
            (path.splitOn '/').getLast?
          else some path

/-- `_PURL_TYPE_BY_LANGUAGE`. -/
def purlTypeByLanguage : List (String × String) :=
  [("python", "pypi"), ("pypi", "pypi"), ("javascript", "npm"), ("typescript", "npm"), ("npm", "npm"),
    ("node", "npm"), ("nodejs", "npm"), ("go", "golang"), ("golang", "golang"), ("gomod", "golang"),
    ("java", "maven"), ("maven", "maven"), ("ruby", "gem"), ("rubygems", "gem"), ("rust", "cargo"),
    ("cargo", "cargo"), ("nuget", "nuget"), ("alpine", "apk"), ("apk", "apk"), ("debian", "deb"),
    ("deb", "deb")]

omit [Unicode] [UrlDecoding] in
/-- A match of `-r\d+$`. -/
def isApkVersion (ver : Str) : Bool :=
  let number := (ver.reverse.takeWhile CharTables.isDecimal).length
  0 < number && (str "-r").isSuffixOf (ver.take (ver.length - number))

omit [Unicode] [CharTables] [UrlDecoding] in
/-- The package URL of a Maven package named `group:artifact`; `none` without an artifact. -/
def mavenPurl (pkg ver : Str) : Option Str :=
  let (group, artifact) := Str.split1 ':' pkg
  if artifact = [] then none
  else some (str "pkg:maven/" ++ quoteUrl [] group ++ str "/" ++ quoteUrl [] artifact ++ str "@" ++ ver)

omit [Unicode] [CharTables] [UrlDecoding] in
/-- The package URL that the ecosystem of a language suggests. -/
def purlOfType (purlType pkg ver : Str) : Option Str :=
  if purlType = str "maven" then if ':' ∈ pkg then mavenPurl pkg ver else none
  else if purlType = str "npm" then some (str "pkg:npm/" ++ quoteUrl ['/'] pkg ++ str "@" ++ ver)
  else if purlType = str "apk" then some (str "pkg:apk/alpine/" ++ pkg ++ str "@" ++ ver)
  else if purlType = str "deb" then some (str "pkg:deb/debian/" ++ pkg ++ str "@" ++ ver)
  else some (str "pkg:" ++ purlType ++ str "/" ++ quoteUrl ['/'] pkg ++ str "@" ++ ver)

/-- The package URL that the shape of a name or a version suggests. -/
def purlOfShape (pkg ver : Str) : Option Str :=
  let firstSegment := Unicode.lower (Str.strip (Str.split1 '/' pkg).1)
  let golang := str "pkg:golang/" ++ pkg ++ str "@" ++ ver
  if ["github.com/", "golang.org/", "gopkg.in/"].any fun p => Str.startsWith pkg (str p) then
    some golang
  else if '/' ∈ pkg ∧ '.' ∈ firstSegment ∧ ' ' ∉ pkg ∧ '@' ∉ pkg then some golang
  else if Str.startsWith pkg (str "@") ∧ '/' ∈ pkg then
    some (str "pkg:npm/" ++ quoteUrl ['/'] pkg ++ str "@" ++ ver)
  else if isApkVersion ver then some (str "pkg:apk/alpine/" ++ pkg ++ str "@" ++ ver)
  else if ':' ∈ pkg ∧ '.' ∈ (Str.split1 ':' pkg).1 then mavenPurl pkg ver
  else none

/-- `_derive_purl`: a package URL and the confidence in it. -/
def derivePurl (name version language : Str) : Option (Str × Str) :=
  let pkg := Str.strip name
  let ver := Str.strip version
  let lang := Unicode.lower (Str.strip language)
  if pkg = [] ∨ ver = [] then none
  else
    (purlOfShape pkg ver).map (·, str "high") <|>
      (((purlTypeByLanguage.find? fun p => str p.1 = lang).bind fun p =>
        purlOfType (str p.2) pkg ver).map (·, str "medium"))

/-! ### Packages -/

omit [CharTables] [UrlDecoding] in
/-- The value of the first property that names a container reference. -/
def containerRefProperty (properties : List (Option Str × Option Str)) : Option Str :=
  (properties.find? fun p =>
    Unicode.lower (Str.strip (Str.orEmpty p.1)) ∈
        ["vat:container_ref", "vat.container_ref", "container_ref", "container.image.ref"].map str ∧
      Str.strip (Str.orEmpty p.2) ≠ []).map fun p => Str.strip (Str.orEmpty p.2)

omit [CharTables] [UrlDecoding] in
/-- `_extract_container_ref`. -/
def extractContainerRef (c : CdxComponent) (doc : CdxDocument) : Str :=
  match containerRefProperty c.properties with
  | some val => val
  | none =>
    if Str.strip (Str.orEmpty c.group) ≠ [] then Str.strip (Str.orEmpty c.group)
    else
      match containerRefProperty doc.metadataProperties with
      | some val => val
      | none => Str.strip (Str.orEmpty doc.metadataName)

omit [Unicode] [CharTables] [UrlDecoding] in
/-- `_clip`. -/
def clip (value : Option Str) (maxLen : ℕ) : Option Str :=
  value.bind fun v => if Str.strip v = [] then none else some ((Str.strip v).take maxLen)

/-- The package of a component. -/
def CdxComponent.entry (doc : CdxDocument) (c : CdxComponent) : SbomEntry :=
  let purl := extractComponentPurl c
  let name := Str.orEmpty (Str.orElse (Str.orElse c.name (nameFromPurl purl)) (some (str "unknown")))
  let version := Str.orEmpty c.version
  let component := extractContainerRef c doc
  let language := Str.orEmpty c.language
  let derived := if purl.isSome then none else derivePurl name version language
  { name := name
    version := version
    component := if component = [] then none else some component
    language := if language = [] then none else some language
    purl := clip (purl <|> derived.map Prod.fst) 512
    purlSource := if purl.isSome then some (str "authoritative") else derived.map fun _ => str "derived"
    purlConfidence := if purl.isSome then some (str "high") else derived.map Prod.snd }

/-- `_parse_cyclonedx`. -/
def parseCyclonedx (doc : CdxDocument) : List SbomEntry :=
  doc.components.map (CdxComponent.entry doc)

end General

end Vat
