import BuildScribe.Building.Section
import BuildScribe.Description.Value

/-!
# Described sections

The parts of a description, how they are read and written, and what they become in a
script.
-/

namespace BuildScribe

inductive PluginDescription where
  /-- A core plugin, by its bare name. -/
  | core (name : String)
  | external (id : String) (version : Option String) (apply : Option Bool)
deriving DecidableEq

namespace PluginDescription

def optionalText? : List Json → Option (Option String)
  | [] => some none
  | [.null] => some none
  | [.string value] => some (some value)
  | _ => none

def optionalFlag? : List Json → Option (Option Bool)
  | [] => some none
  | [.null] => some none
  | [.bool value] => some (some value)
  | _ => none

/-- A plugin is a string, or an object with a string under `id`. -/
def ofJson? : Json → Option PluginDescription
  | .string name => some (.core name)
  | .object members =>
      match DescribedValue.valuesUnder "id" members with
      | [.string id] => do
          let version ← optionalText? (DescribedValue.valuesUnder "version" members)
          let apply ← optionalFlag? (DescribedValue.valuesUnder "apply" members)
          pure (.external id version apply)
      | _ => none
  | _ => none

def toJson : PluginDescription → Json
  | core name => .string name
  | external id version apply =>
      .object [("id", .string id), ("version", (Codec.optional .text).toJson version),
        ("apply", (Codec.optional .flag).toJson apply)]

def codec : Codec PluginDescription :=
  .oneOf "PluginDescription" ofJson? toJson

def spec : PluginDescription → PluginSpec
  | core name => { id := name, core := true, version := none, apply := none }
  | external id version apply =>
      { id := id, core := false, version := version, apply := apply }

end PluginDescription

namespace Repository

/-- The body of a repository with an address. -/
def mavenRecord : Record String :=
  { title := "struct variant RepositoryDescription::Maven"
    strict := false
    blank := ""
    fields := [.of "url" true .text id fun value _ => value] }

def toJson : Repository → Json
  | mavenCentral => .string "mavenCentral"
  | mavenLocal => .string "mavenLocal"
  | google => .string "google"
  | gradlePluginPortal => .string "gradlePluginPortal"
  | maven url => .object [("maven", mavenRecord.toJson url)]

def codec : Codec Repository :=
  Variant.codec
    [.plain "mavenCentral" mavenCentral, .plain "mavenLocal" mavenLocal,
      .plain "google" google, .plain "gradlePluginPortal" gradlePluginPortal,
      .withBody "maven" mavenRecord maven]
    toJson

end Repository

structure PublicationDescription where
  name : String
  typeName : String := "MavenPublication"
  component : Option String := none
  groupId : Option String := none
  artifactId : Option String := none
  version : Option String := none
deriving DecidableEq

namespace PublicationDescription

def record : Record PublicationDescription :=
  { title := "struct PublicationDescription"
    strict := true
    blank := { name := "" }
    fields := [
      .of "name" true .text (·.name)
        fun value publication => { publication with name := value },
      .of "type" false .text (·.typeName)
        fun value publication => { publication with typeName := value },
      .of "component" false (.optional .text) (·.component)
        fun value publication => { publication with component := value },
      .of "groupId" false (.optional .text) (·.groupId)
        fun value publication => { publication with groupId := value },
      .of "artifactId" false (.optional .text) (·.artifactId)
        fun value publication => { publication with artifactId := value },
      .of "version" false (.optional .text) (·.version)
        fun value publication => { publication with version := value }] }

def publication (described : PublicationDescription) : Publication :=
  { name := described.name
    typeName := described.typeName
    parts :=
      (described.component.map .component).toList ++
        (described.groupId.map .groupId).toList ++
        (described.artifactId.map .artifactId).toList ++
        (described.version.map .version).toList }

end PublicationDescription

structure PublishingDescription where
  repositories : List Repository := []
  publications : List PublicationDescription := []
deriving DecidableEq

namespace PublishingDescription

def record : Record PublishingDescription :=
  { title := "struct PublishingDescription"
    strict := true
    blank := {}
    fields := [
      .of "repositories" false (.list Repository.codec) (·.repositories)
        fun value publishing => { publishing with repositories := value },
      .of "publications" false (.list PublicationDescription.record.codec)
        (·.publications)
        fun value publishing => { publishing with publications := value }] }

/-- The blocks of the section in a script; empty ones are left out. -/
def parts (described : PublishingDescription) : List PublishingPart :=
  (if described.repositories.isEmpty then []
    else [.repositories described.repositories]) ++
    (if described.publications.isEmpty then []
      else [.publications (described.publications.map (·.publication))])

end PublishingDescription

structure SigningDescription where
  key : DescribedValue
  password : DescribedValue
  signPublications : Bool := true
deriving DecidableEq

namespace SigningDescription

def record : Record SigningDescription :=
  { title := "struct SigningDescription"
    strict := true
    blank := { key := .literal .null, password := .literal .null }
    fields := [
      .of "key" true DescribedValue.codec (·.key)
        fun value signing => { signing with key := value },
      .of "password" true DescribedValue.codec (·.password)
        fun value signing => { signing with password := value },
      .of "signPublications" false .flag (·.signPublications)
        fun value signing => { signing with signPublications := value }] }

def parts (described : SigningDescription) : Except Failure (List SigningPart) := do
  let key ← described.key.toNode
  let password ← described.password.toNode
  pure (.keys key password ::
    (if described.signPublications then [.publications] else []))

end SigningDescription

end BuildScribe
