import MakeDeps.Proofs.Directive.Parts
import MakeDeps.Proofs.Resolver.Unread

/-!
# Line ends and bytes that are no text

What a line includes does not depend on the bytes of other lines, nor on how lines are ended. So a
resolution finds the same in trees that differ in the line ends of their files only:
`resolve_lineEnds`.
-/

namespace MakeDeps

/-- The contents consist of the same parts, with line ends of any kind between them. -/
def SameParts (content content' : List UInt8) : Prop :=
  ∃ first rest rest', content = Directive.joined first rest ∧
    content' = Directive.joined first rest' ∧ rest.map Prod.snd = rest'.map Prod.snd

/-- Content with the same parts has the same directives. -/
lemma SameParts.ofContent_eq {content content' : List UInt8} (h : SameParts content content') :
    Directive.ofContent content' = Directive.ofContent content := by
  obtain ⟨first, rest, rest', rfl, rfl, hsame⟩ := h
  have hparts (rest : List (Directive.LineEnd × List UInt8)) :
      rest.flatMap (fun part => Directive.ofContent part.2) =
        (rest.map Prod.snd).flatMap Directive.ofContent := by
    rw [List.flatMap_map]
  rw [Directive.ofContent_joined, Directive.ofContent_joined, hparts, hparts, hsame]

/-- The trees are the same, but for the line ends of their files. -/
structure FileSystem.SameLines (fs fs' : FileSystem) : Prop where
  shape : fs.SameShape fs'
  parts : ∀ loc content content', fs.find? loc = some (.file content) →
    fs'.find? loc = some (.file content') → SameParts content content'

namespace Resolver

variable {r : Resolver} {fs fs' : FileSystem} {file : String} {content content' : List UInt8}

/-- The scan of a file depends on the directives in it, and on where they lead. -/
lemma scan_eq_of_ofContent (hread : fs.read [] (r.path file) = .ok content)
    (hread' : fs'.read [] (r.path file) = .ok content')
    (hcontent : Directive.ofContent content' = Directive.ofContent content)
    (hlocate : r.locate fs' = r.locate fs) : r.scan fs' file = r.scan fs file := by
  have hfollowed : r.isFollowed fs' file = r.isFollowed fs file := by
    funext directive
    cases directive with
    | localFile target => rw [isFollowed, isFollowed, hlocate]
    | systemHeader header => rfl
  simp only [scan, hread, hread', hcontent, hfollowed, hlocate]

/-- Files with the same lines are scanned alike. -/
lemma scan_of_sameLines (h : fs.SameLines fs') (r : Resolver) (file : String) :
    r.scan fs' file = r.scan fs file := by
  have hlocate : r.locate fs' = r.locate fs := locate_congr h.shape
  rcases h.shape.read_eq_or [] (r.path file) with
    hread | ⟨loc, content, content', hfind, hfind', hread, hread'⟩
  · exact scan_congr hread fun _ _ _ _ => by rw [hlocate]
  · exact scan_eq_of_ofContent hread hread' (h.parts loc content content' hfind hfind').ofContent_eq
      hlocate

/-- The directives of a file that is cut at a line end are those of the first part and those of the
second, whatever bytes the parts consist of; so the directives of any number of parts are those of
each part by itself. Trees that are the same, but for the line ends of their files, have the same
resolvers, and all resolutions have the same outcome. -/
theorem resolve_lineEnds :
    (∀ (xs ys : List UInt8) (lineEnd : Directive.LineEnd),
      Directive.ofContent (xs ++ lineEnd.bytes ++ ys) =
        Directive.ofContent xs ++ Directive.ofContent ys) ∧
    (∀ (first : List UInt8) (rest : List (Directive.LineEnd × List UInt8)),
      Directive.ofContent (Directive.joined first rest) =
        Directive.ofContent first ++ rest.flatMap fun part => Directive.ofContent part.2) ∧
    ∀ fs fs' : FileSystem, fs.SameLines fs' → create fs' = create fs ∧
      ∀ r : Resolver, r.resolve fs' = r.resolve fs := by
  refine ⟨Directive.ofContent_lineEnd, Directive.ofContent_joined, fun fs fs' h =>
    ⟨create_congr h.shape, fun r => ?_⟩⟩
  exact resolve_congr (listing_congr h.shape) fun file _ => scan_of_sameLines h r file

/-- A project with a file of two lines, the first of which ends in the middle of a character. -/
def endedTree (lineEnd : Directive.LineEnd) : FileSystem :=
  cyclicTree.place ["p"] "t.c" (.file (Directive.joined
    (Text.Utf8.encode "#include \"a.c\" //".toList ++ [0xE2, 0x82])
    [(lineEnd, Text.Utf8.encode "#include \"h\"".toList)]))

/-- The tree is the same but for the ends of its lines. -/
lemma sameLines_ended (lineEnd lineEnd' : Directive.LineEnd) :
    (endedTree lineEnd).SameLines (endedTree lineEnd') := by
  have hplace (lineEnd : Directive.LineEnd) (loc : Location) : (endedTree lineEnd).find? loc =
      if loc = ["p", "t.c"] then some (.file (Directive.joined
        (Text.Utf8.encode "#include \"a.c\" //".toList ++ [0xE2, 0x82])
        [(lineEnd, Text.Utf8.encode "#include \"h\"".toList)]))
      else cyclicTree.find? loc :=
    FileSystem.find?_place_file (by decide) (by decide) (by decide) loc
  refine ⟨FileSystem.sameShape_place (by decide) (by decide) (by decide),
    fun loc content content' hfind hfind' => ?_⟩
  rw [hplace] at hfind hfind'
  by_cases hloc : loc = ["p", "t.c"]
  · rw [if_pos hloc] at hfind hfind'
    cases hfind
    cases hfind'
    exact ⟨_, _, _, rfl, rfl, rfl⟩
  · rw [if_neg hloc] at hfind hfind'
    cases hfind.symm.trans hfind'
    exact ⟨content, [], [], by simp [Directive.joined], by simp [Directive.joined], rfl⟩

set_option maxRecDepth 4000 in
/-- In the tree with line feeds both lines of the test count. -/
lemma resolve_ended : (cyclic.resolve (endedTree .lineFeed)).result =
    .ok ⟨[("h", ["a.c", "h"]), ("a.c", ["h"]), ("t.c", ["a.c", "h"])], ["m"]⟩ := by
  cbv

/-- Both lines count, however the first one is ended. -/
theorem resolve_lineEnds_ended :
    (endedTree .lineFeed).SameLines (endedTree .both) ∧
    (cyclic.resolve (endedTree .both)).result =
      .ok ⟨[("h", ["a.c", "h"]), ("a.c", ["h"]), ("t.c", ["a.c", "h"])], ["m"]⟩ := by
  have hsame := sameLines_ended .lineFeed .both
  exact ⟨hsame, ((resolve_lineEnds.2.2 _ _ hsame).2 cyclic).symm ▸ resolve_ended⟩

end Resolver

end MakeDeps
