import BuildScribe.Context.Handle

/-!
# Sections of a Gradle script

The parts of a script that have a form of their own: plugins, repositories,
publications and signing.
-/

namespace BuildScribe

/-- A repository that artifacts come from or go to. -/
inductive Repository where
  | mavenCentral
  | mavenLocal
  | google
  | gradlePluginPortal
  | maven (url : String)
deriving DecidableEq

namespace Repository

/-- A repository with a name of its own is a call, any other one is addressed by
its location. -/
def node : Repository → Node
  | mavenCentral => .invoke "mavenCentral" []
  | mavenLocal => .invoke "mavenLocal" []
  | google => .invoke "google" []
  | gradlePluginPortal => .invoke "gradlePluginPortal" []
  | maven url => .mavenRepository ⟨.statement, none, .empty⟩ url

def block (repositories : List Repository) : Node :=
  .named "repositories" (repositories.map node)

end Repository

namespace PluginSpec

def node (spec : PluginSpec) : Node :=
  .plugin ⟨.statement, none, .empty⟩ spec

def block (specs : List PluginSpec) : Node :=
  .named "plugins" (specs.map node)

end PluginSpec

/-- A statement inside a publication. -/
inductive PublicationPart where
  /-- The software component that is published. -/
  | component (name : String)
  | property (path : String) (value : Node)

namespace PublicationPart

def groupId (value : String) : PublicationPart :=
  .property "groupId" (.ofString value)

def artifactId (value : String) : PublicationPart :=
  .property "artifactId" (.ofString value)

def version (value : String) : PublicationPart :=
  .property "version" (.ofString value)

def node : PublicationPart → Node
  | component name =>
      .invoke "from" [.component ⟨.expression, none, .empty⟩ name]
  | property path value => .assign path value

end PublicationPart

structure Publication where
  name : String
  typeName : String := "MavenPublication"
  parts : List PublicationPart

namespace Publication

def node (publication : Publication) : Node :=
  .call ⟨.expression, none, .empty⟩ none "create"
    [.of (.named publication.typeName)] [.ofString publication.name]
    (some (.of (publication.parts.map PublicationPart.node)))

end Publication

inductive PublishingPart where
  | repositories (repositories : List Repository)
  | publications (publications : List Publication)

namespace PublishingPart

def node : PublishingPart → Node
  | repositories listed => Repository.block listed
  | publications listed => .named "publications" (listed.map Publication.node)

def block (parts : List PublishingPart) : Node :=
  .named "publishing" (parts.map node)

end PublishingPart

inductive SigningPart where
  | keys (key password : Node)
  /-- Signs all publications. -/
  | publications

namespace SigningPart

/-- The statement; publications are found through the handle of the publishing
section. -/
def node (publishing : Handle) : SigningPart → Node
  | keys key password => .invoke "useInMemoryPgpKeys" [key, password]
  | publications =>
      .invoke "sign" [.reference (publishing.child "publications").toReference]

def block (publishing : Handle) (parts : List SigningPart) : Node :=
  .named "signing" (parts.map (node publishing))

end SigningPart

end BuildScribe
