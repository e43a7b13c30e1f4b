import AnchorScript.Page.Bundle
import AnchorScript.Proofs.Reader.Insertion
import AnchorScript.Proofs.Reader.WellFormed
import Mathlib.Data.List.Basic

namespace AnchorScript

/-!
# Unrelated statements

Every bundle pays attention to a few scopes and to a few sources, and is made of
the statements that it selects by them. A statement with other anchors is
overlooked: a line that holds it may stand anywhere in a text, as long as it
splits no statement, and the bundle is the same as without it.
-/

/-- What the anchors of a statement are looked at for. -/
structure Attention where
  sourceScopes : List String
  targetScopes : List String
  -- sources that are looked for by all of their text
  sources : List String

namespace Attention

/-- Nothing is found in the anchors that is looked for. -/
structure Overlooks
    (attention : Attention)
    (source target : Anchor) : Prop where
  sourceScope :
    ∀ scope ∈ attention.sourceScopes, source.scope ≠ some scope
  targetScope :
    ∀ scope ∈ attention.targetScopes, target.scope ≠ some scope
  sourceText : source.raw ∉ attention.sources

/-- The line is no statement, or one with anchors in which nothing is found. -/
def OverlooksLine (attention : Attention) (line : String) : Prop :=
  ∀ statement,
    Statement.ofLine? line = some statement →
      attention.Overlooks statement.source statement.target

/-- Whatever is looked for, the same statements are found in both documents. -/
structure FindsSame
    (attention : Attention)
    (left right : Document) : Prop where
  fromScope :
    ∀ scope ∈ attention.sourceScopes,
      left.touching scope .source = right.touching scope .source
  intoScope :
    ∀ scope ∈ attention.targetScopes,
      left.touching scope .target = right.touching scope .target
  fromSource :
    ∀ source ∈ attention.sources,
      left.comingFrom source = right.comingFrom source

end Attention

/-- The attention of an ordinary page. -/
def Page.attention : Attention where
  sourceScopes := ["Meta", "FAQ"]
  targetScopes := ["Hero", "Feature", "CodeExample", "Content"]
  sources := []

/-- The attention of the two menus. -/
def Navigation.attention : Attention where
  sourceScopes := []
  targetScopes := []
  sources := ["Nav:Main", "Nav:Footer"]

/-- The attention of the tools page; it looks for the listed sources. -/
def ToolsPage.attention (sources : List String) : Attention where
  sourceScopes := ["Meta"]
  targetScopes := ["Hero"]
  sources := sources

/-- The attention of the comparison page. -/
def ComparisonPage.attention : Attention where
  sourceScopes := ["Meta", "FAQ", "ASO"]
  targetScopes := ["Hero", "Content"]
  sources := []

/-- A source that is written with a scope is looked for among those in the scope. -/
theorem Document.comingFrom_eq_filter_touching
    {document : Document}
    (wellFormed : document.IsWellFormed)
    {source scope : String}
    (isScope : (Anchor.ofText source.toList).scope = some scope) :
    document.comingFrom source =
      (document.touching scope .source).filter fun statement =>
        statement.comesFrom source := by
  rw [comingFrom, touching, List.filter_filter]
  apply List.filter_congr
  intro statement member
  cases comes : statement.comesFrom source with
  | false =>
      rfl
  | true =>
      have raw : statement.source.raw = source := by
        simpa [Statement.comesFrom] using comes
      have reread := (wellFormed.statements statement member).source.reread
      rw [raw] at reread
      simp [Statement.touches, Anchor.isIn, ← reread, isScope]

section Bundles

variable {left right : Document}

theorem Page.ofDocument_congr
    (same : attention.FindsSame left right) :
    ofDocument left = ofDocument right := by
  have sameMeta := same.fromScope "Meta" (by decide)
  have sameQuestions := same.fromScope "FAQ" (by decide)
  have sameHero := same.intoScope "Hero" (by decide)
  have sameFeatures := same.intoScope "Feature" (by decide)
  have sameExamples := same.intoScope "CodeExample" (by decide)
  have sameContent := same.intoScope "Content" (by decide)
  simp only [ofDocument, PageMeta.ofDocument, Hero.ofDocument?,
    Feature.allOf, CodeExample.allOf, ContentBlock.allOf, Question.allOf,
    sameMeta, sameQuestions, sameHero, sameFeatures, sameExamples,
    sameContent]

theorem Navigation.ofDocument_congr
    (same : attention.FindsSame left right) :
    ofDocument left = ofDocument right := by
  have sameMain := same.fromSource "Nav:Main" (by decide)
  have sameFooter := same.fromSource "Nav:Footer" (by decide)
  simp only [ofDocument, menu, sameMain, sameFooter]

theorem ToolsPage.ofDocument_congr
    {sources : List String}
    (same : (attention sources).FindsSame left right) :
    ofDocument sources left = ofDocument sources right := by
  have sameMeta := same.fromScope "Meta" List.mem_cons_self
  have sameHero := same.intoScope "Hero" List.mem_cons_self
  have sameTools : Tool.allOf left sources = Tool.allOf right sources := by
    apply List.filterMap_congr
    intro source member
    rw [same.fromSource source member]
  simp only [ofDocument, PageMeta.ofDocument, Hero.ofDocument?, sameMeta,
    sameHero, sameTools]

/-- The rows are found among the statements in their scope, when both documents were read. -/
theorem ComparisonPage.ofDocument_congr
    (leftWellFormed : left.IsWellFormed)
    (rightWellFormed : right.IsWellFormed)
    (same : attention.FindsSame left right) :
    ofDocument left = ofDocument right := by
  have sameMeta := same.fromScope "Meta" (by decide)
  have sameQuestions := same.fromScope "FAQ" (by decide)
  have sameLevels := same.fromScope "ASO" (by decide)
  have sameHero := same.intoScope "Hero" (by decide)
  have sameContent := same.intoScope "Content" (by decide)
  have isScope :
      (Anchor.ofText "ASO:Comparison".toList).scope = some "ASO" := by
    decide
  have sameRows :
      left.comingFrom "ASO:Comparison" =
        right.comingFrom "ASO:Comparison" := by
    rw [Document.comingFrom_eq_filter_touching leftWellFormed isScope,
      Document.comingFrom_eq_filter_touching rightWellFormed isScope,
      sameLevels]
  simp only [ofDocument, PageMeta.ofDocument, Hero.ofDocument?,
    ContentBlock.allOf, Question.allOf, ComparisonRow.allOf, Level.allOf,
    sameMeta, sameQuestions, sameLevels, sameHero, sameContent, sameRows]

end Bundles

private theorem filter_insert
    {selects : Statement → Bool}
    {inserted : Option Statement}
    (passed : ∀ statement, inserted = some statement → selects statement = false)
    (earlier later : List Statement) :
    (earlier ++ (inserted.toList ++ later)).filter selects =
      (earlier ++ later).filter selects := by
  cases inserted with
  | none =>
      rfl
  | some statement =>
      simp [passed statement rfl]

/-- A statement that is overlooked may stand between any two others. -/
theorem Attention.findsSame_of_insert
    {attention : Attention}
    {longer shorter : Document}
    {inserted : Option Statement}
    {earlier later : List Statement}
    (withIt : longer.statements = earlier ++ (inserted.toList ++ later))
    (withoutIt : shorter.statements = earlier ++ later)
    (overlooked :
      ∀ statement,
        inserted = some statement →
          attention.Overlooks statement.source statement.target) :
    attention.FindsSame longer shorter := by
  constructor
  case fromScope =>
    intro scope member
    rw [Document.touching, withIt, Document.touching, withoutIt]
    refine filter_insert (fun statement isInserted => ?_) _ _
    simpa [Statement.touches, Anchor.isIn] using
      (overlooked statement isInserted).sourceScope scope member
  case intoScope =>
    intro scope member
    rw [Document.touching, withIt, Document.touching, withoutIt]
    refine filter_insert (fun statement isInserted => ?_) _ _
    simpa [Statement.touches, Anchor.isIn] using
      (overlooked statement isInserted).targetScope scope member
  case fromSource =>
    intro source member
    rw [Document.comingFrom, withIt, Document.comingFrom, withoutIt]
    refine filter_insert (fun statement isInserted => ?_) _ _
    have other :=
      ne_of_mem_of_not_mem member (overlooked statement isInserted).sourceText
    simpa [Statement.comesFrom] using other.symm

/-- With a line that is overlooked, and without it, the same statements are found. -/
theorem Attention.findsSame_ofText_insert
    (attention : Attention)
    (first : String)
    {second line : String}
    (anew : Text.StartsAnew second)
    (unbroken : '\n' ∉ line.toList)
    (opens : (Text.trim line.toList).head? = some '[')
    (overlooked : attention.OverlooksLine line) :
    attention.FindsSame
      (Document.ofText (first ++ "\n" ++ line ++ "\n" ++ second))
      (Document.ofText (first ++ "\n" ++ second)) := by
  have withoutIt :=
    congrArg (fun reading => reading.document.statements)
      (Reading.ofText_append_of_startsAnew first anew)
  refine findsSame_of_insert
    (Reading.statements_ofText_insert first anew unbroken opens)
    withoutIt ?_
  intro statement found
  obtain ⟨untrimmed, foundUntrimmed, sameSource, sameTarget⟩ :=
    Statement.exists_ofLine?_of_trim found
  rw [← sameSource, ← sameTarget]
  exact overlooked untrimmed foundUntrimmed

namespace Document

/--
A line that is overlooked by a bundle does not change it. The line may be put
between any two texts, if the second does not continue the first and the line
itself opens a statement, or could.
-/
theorem ofText_insert_overlooked
    (first : String)
    {second line : String}
    (anew : Text.StartsAnew second)
    (unbroken : '\n' ∉ line.toList)
    (opens : (Text.trim line.toList).head? = some '[') :
    let shorter := ofText (first ++ "\n" ++ second)
    let longer := ofText (first ++ "\n" ++ line ++ "\n" ++ second)
    (Page.attention.OverlooksLine line →
        Page.ofDocument longer = Page.ofDocument shorter) ∧
      (Navigation.attention.OverlooksLine line →
        Navigation.ofDocument longer = Navigation.ofDocument shorter) ∧
      (∀ sources,
        (ToolsPage.attention sources).OverlooksLine line →
          ToolsPage.ofDocument sources longer =
            ToolsPage.ofDocument sources shorter) ∧
      (ComparisonPage.attention.OverlooksLine line →
        ComparisonPage.ofDocument longer =
          ComparisonPage.ofDocument shorter) := by
  intro shorter longer
  have findsSame
      {attention : Attention}
      (overlooked : attention.OverlooksLine line) :
      attention.FindsSame longer shorter :=
    attention.findsSame_ofText_insert first anew unbroken opens overlooked
  refine ⟨?page, ?navigation, ?tools, ?comparison⟩
  case page =>
    exact fun overlooked => Page.ofDocument_congr (findsSame overlooked)
  case navigation =>
    exact fun overlooked => Navigation.ofDocument_congr (findsSame overlooked)
  case tools =>
    exact fun sources overlooked =>
      ToolsPage.ofDocument_congr (findsSame overlooked)
  case comparison =>
    exact fun overlooked =>
      ComparisonPage.ofDocument_congr (isWellFormed_ofText _)
        (isWellFormed_ofText _) (findsSame overlooked)

/--
A statement with an order, a title and a target of its own stands between the
metadata and a comment that ends them, and none of the bundles shows it.
-/
theorem ofText_insert_overlooked_hub :
    let shorter :=
      ofText ("[Meta:A] -> [Page] ::mod(title=T)" ++ "\n" ++ "# c\n::mod(title=U)")
    let longer :=
      ofText
        ("[Meta:A] -> [Page] ::mod(title=T)" ++ "\n" ++
          "\t[Site] -> [Hub:B]::mod(order=0, title=V) \r" ++ "\n" ++
          "# c\n::mod(title=U)")
    Page.ofDocument longer = Page.ofDocument shorter ∧
      Navigation.ofDocument longer = Navigation.ofDocument shorter ∧
      ToolsPage.ofDocument ["Tool:CLI"] longer =
        ToolsPage.ofDocument ["Tool:CLI"] shorter ∧
      ComparisonPage.ofDocument longer =
        ComparisonPage.ofDocument shorter := by
  have overlooked
      (attention : Attention)
      (isOverlooked :
        attention.Overlooks (Anchor.ofText "Site".toList)
          (Anchor.ofText "Hub:B".toList)) :
      attention.OverlooksLine
        "\t[Site] -> [Hub:B]::mod(order=0, title=V) \r" := by
    intro statement found
    obtain ⟨ends, foundEnds, rfl⟩ := Option.map_eq_some_iff.mp found
    have isEnds :
        Reader.arrow?
            "\t[Site] -> [Hub:B]::mod(order=0, title=V) \r".toList =
          some ("Site".toList, "Hub:B".toList) := by
      decide
    rw [isEnds, Option.some.injEq] at foundEnds
    rw [← foundEnds]
    exact isOverlooked
  have opens :
      (Text.trim
        "\t[Site] -> [Hub:B]::mod(order=0, title=V) \r".toList).head? =
          some '[' := by
    decide
  obtain ⟨page, navigation, tools, comparison⟩ :=
    ofText_insert_overlooked "[Meta:A] -> [Page] ::mod(title=T)"
      (Or.inr (Or.inr (by decide)) : Text.StartsAnew "# c\n::mod(title=U)")
      (by decide) opens
  exact
    ⟨page (overlooked _ ⟨by decide, by decide, by decide⟩),
      navigation (overlooked _ ⟨by decide, by decide, by decide⟩),
      tools _ (overlooked _ ⟨by decide, by decide, by decide⟩),
      comparison (overlooked _ ⟨by decide, by decide, by decide⟩)⟩

end Document

end AnchorScript
