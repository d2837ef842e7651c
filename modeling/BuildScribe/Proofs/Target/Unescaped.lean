import BuildScribe.Proofs.Layout.Outline
import BuildScribe.Proofs.Target.Spelling
import BuildScribe.Proofs.Tree.Paths

/-!
# Names that are not escaped

Between backticks nothing is escaped: a quoted Kotlin name has the line feeds of the name.
Groovy quotes names as string literals, which have none.
-/

namespace BuildScribe

/-- The line feeds of texts with a separator between them. -/
theorem lineFeeds_intercalate_map {separator : String} {change : String → String}
    (same : ∀ text, lineFeeds (change text) = lineFeeds text) (texts : List String) :
    lineFeeds (separator.intercalate (texts.map change)) =
      lineFeeds (separator.intercalate texts) := by
  induction texts with
  | nil => rfl
  | cons first rest ih =>
      cases rest with
      | nil => simp [same]
      | cons second others =>
          simp only [List.map_cons, String.intercalate_cons_cons, lineFeeds_append, same]
            at ih ⊢
          rw [ih]

namespace Language

theorem lineFeeds_backtickedName (name : String) :
    lineFeeds (backtickedName name) = lineFeeds name := by
  have backtick : lineFeeds "`" = 0 := rfl
  unfold backtickedName
  split
  · rfl
  · rw [lineFeeds_append, lineFeeds_append, backtick, Nat.zero_add, Nat.add_zero]

/-- What a language does not escape of a name that it quotes. -/
def unescaped : Language → String → String
  | kotlin, name => name
  | groovy, _ => ""

theorem lineFeeds_referenceText (language : Language) (path : String) :
    lineFeeds (language.referenceText (.ofPath path)) =
      lineFeeds (language.unescaped path) := by
  cases language with
  | kotlin =>
      rw [referenceText, referenceParts, lineFeeds_intercalate_map lineFeeds_backtickedName]
      exact congrArg lineFeeds (Reference.dottedPath_ofPath path)
  | groovy => exact (isInline_groovyReferenceText _).lineFeeds_eq

theorem lineFeeds_stringLiteral (language : Language) (value : String) :
    lineFeeds (language.stringLiteral value) = 0 :=
  (language.isInline_stringLiteral value).lineFeeds_eq

theorem lineFeeds_pluginText (language : Language) (spec : PluginSpec) :
    lineFeeds (language.pluginText spec) =
      lineFeeds (if spec.core then language.unescaped spec.id else "") := by
  have onId : lineFeeds (language.pluginId spec) =
      lineFeeds (if spec.core then language.unescaped spec.id else "") := by
    have opening : lineFeeds "id(" = 0 := rfl
    have closing : lineFeeds ")" = 0 := rfl
    have lead : lineFeeds "id " = 0 := rfl
    obtain ⟨id, core, version, apply⟩ := spec
    cases language <;> cases core
    · simp [pluginId, opening, closing, lineFeeds_stringLiteral]
    · exact lineFeeds_backtickedName id
    · simp [pluginId, lead, lineFeeds_stringLiteral]
    · simp [pluginId, lead, lineFeeds_stringLiteral, unescaped]
  have onVersion (version : String) :
      lineFeeds (" version " ++ language.stringLiteral version) = 0 := by
    have lead : lineFeeds " version " = 0 := rfl
    rw [lineFeeds_append, lead, lineFeeds_stringLiteral]
  have onApply (applied : Bool) : lineFeeds (" apply " ++ toString applied) = 0 := by
    cases applied <;> rfl
  unfold pluginText
  rw [← onId]
  cases spec.version <;> cases spec.apply <;>
    simp only [lineFeeds_append (_ ++ _) _, lineFeeds_append (pluginId _ _) _, onVersion,
      onApply, lineFeeds_empty, Nat.add_zero]

end Language

end BuildScribe
