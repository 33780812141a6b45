import MigrationBench.Proofs.Files.Hops
import MigrationBench.Proofs.Tree.Completion

/-!
# Links to a target

A check of a link does not follow the link: it follows the path that the text of the link stands for, in
the directory of the link. Both lead to one place, unless the link itself cannot be followed to its end.

* `FileSystem.sameFile_reached` — the file that a link leads to is the one that its text stands for.
* `Inspection.adds_link` — a check of a link, where everything is in reach.
* `Inspection.links_compared` — which links are accepted, and what is told of the others.
* `Inspection.unfollowed_accepted` — links that are accepted and cannot be followed, and checks that do
  not complete.
-/

namespace MigrationBench

namespace FileSystem

variable {fs : FileSystem}

theorem exists_locate_of_sameFile {p q : PathName} (h : fs.SameFile p q) :
    ∃ location node, fs.locate (.ofPath p) = .ok (location, node) := by
  obtain ⟨file, hfile, -⟩ := h
  exact isThere_of_identityAt? hfile

/-- Paths that lead to one place are one file or other ones together. -/
theorem sameFile_congr {p p' q : PathName} {location : List String} {node : Node}
    (h : fs.locate (.ofPath p) = .ok (location, node))
    (h' : fs.locate (.ofPath p') = .ok (location, node)) : fs.SameFile p q ↔ fs.SameFile p' q := by
  rw [SameFile, SameFile, identityAt?_eq h, identityAt?_eq h']

/-- **The file that a link leads to** is the one that its text stands for in the directory of the link. -/
theorem sameFile_reached {p q : PathName} {text : String} (hlink : fs.linkAt? p = some text)
    (hsize : (p.parent.below text).render.utf8ByteSize < Route.sizeLimit) (h : fs.SameFile p q) :
    fs.SameFile (p.parent.below text) q := by
  obtain ⟨location, node, hlocate⟩ := exists_locate_of_sameFile h
  exact (sameFile_congr hlocate (locate_reached hlink hsize hlocate)).1 h

end FileSystem

namespace Inspection

variable {i : Inspection}

/-- Where everything is in reach, a check of a link completes and adds what is wrong with its target and
with it. -/
theorem adds_link {name target : String} (h : i.InReach [.symlink name target]) :
    i.Adds (.symlink name target)
      (i.files.missing i.root target ++ i.files.misdirected i.root name target) := by
  have hmem : Check.symlink name target ∈ [Check.symlink name target] := List.mem_singleton_self _
  have hname := h.named _ hmem name (List.mem_singleton_self _)
  have htarget := h.followed _ hmem target (List.mem_singleton_self _)
  apply adds_of_records
  rw [acts_symlink]
  exact (records_verify h.links htarget).append
    (records_link h.links hname htarget fun link => h.reached hmem)

/-- What is wrong with a link is read off the path that its text stands for. -/
theorem misdirected_of_link {name target text : String}
    (h : i.files.linkAt? (i.root.below name) = some text) :
    i.files.misdirected i.root name target
      = if i.files.SameFile (i.reached name text) (i.root.below target) then []
        else [.wrongTarget name (i.reached name text) target] := by
  rw [FileSystem.misdirected, h]
  rfl

theorem misdirected_of_none {name target : String} (h : i.files.linkAt? (i.root.below name) = none) :
    i.files.misdirected i.root name target = [.notLink name] := by
  rw [FileSystem.misdirected, h]

/-- A target that is one file with another path is there. -/
theorem missing_of_sameFile {p : PathName} {target : String}
    (h : i.files.SameFile p (i.root.below target)) : i.files.missing i.root target = [] := by
  obtain ⟨file, -, htarget⟩ := h
  exact if_pos (FileSystem.isThere_of_identityAt? htarget)

variable (i)

/-- **Links are compared by what their texts stand for.** Where everything is in reach a check of a link
completes. If the name is that of a link that leads to the file that the target leads to, it finds
nothing. If it finds nothing, then the name is that of a link whose text stands for that file in the
directory of the link, and the link leads to it as well, unless it cannot be followed to its end: as there
are too many links on its way, or as its text asks for a directory and what is there is none, or is one in
which nothing may be looked up. If it finds something, it finds the target missing, if it is, and one
thing more: that the name is not that of a link, or else that the link leads elsewhere. -/
theorem links_compared {name target : String} (h : i.InReach [.symlink name target]) :
    ∃ found, i.Adds (.symlink name target) found ∧
      (∀ text, i.files.linkAt? (i.root.below name) = some text →
        i.files.SameFile (i.root.below name) (i.root.below target) → found = []) ∧
      (found = [] → ∃ text, i.files.linkAt? (i.root.below name) = some text ∧
        i.files.SameFile (i.reached name text) (i.root.below target) ∧
        (i.files.SameFile (i.root.below name) (i.root.below target) ∨
          i.files.locate (.ofPath (i.root.below name)) = .error .linkLoop ∨
          (i.files.locate (.ofPath (i.root.below name)) = .error .notDirectory ∨
            i.files.locate (.ofPath (i.root.below name)) = .error .denied) ∧
            Route.AsksForDirectory text)) ∧
      (found ≠ [] → found = i.files.missing i.root target ++
        [(i.files.linkAt? (i.root.below name)).elim (.notLink name) fun text =>
          .wrongTarget name (i.reached name text) target]) := by
  refine ⟨_, adds_link h, ?_⟩
  cases hlink : i.files.linkAt? (i.root.below name) with
  | none =>
    rw [misdirected_of_none hlink]
    refine ⟨?_, ?_, ?_⟩
    · intro text htext
      cases htext
    · intro hnone
      exact absurd (List.append_eq_nil_iff.1 hnone).2 (List.cons_ne_nil _ _)
    · intro _
      rfl
  | some text =>
    rw [misdirected_of_link hlink]
    by_cases hreached : i.files.SameFile (i.reached name text) (i.root.below target)
    · rw [if_pos hreached, missing_of_sameFile hreached]
      refine ⟨fun _ _ _ => rfl, fun _ => ⟨text, rfl, hreached, ?_⟩, fun hsome => absurd rfl hsome⟩
      obtain ⟨location, node, hlocate⟩ := FileSystem.exists_locate_of_sameFile hreached
      exact (FileSystem.locate_link hlink hlocate).imp_left fun hok =>
        (FileSystem.sameFile_congr hlocate hok).1 hreached
    · rw [if_neg hreached]
      refine ⟨?_, ?_, fun _ => rfl⟩
      · intro text' _ hsame
        obtain ⟨hsize, -⟩ := h.targets name target (List.mem_singleton_self _) text hlink
        exact absurd (FileSystem.sameFile_reached hlink hsize hsame) hreached
      · intro hnone
        exact absurd (List.append_eq_nil_iff.1 hnone).2 (List.cons_ne_nil _ _)

theorem inReach_linkedTree : linkedInspection.InReach [.symlink "l" "b"] where
  links := shortLinks_linkedTree
  followed := by
    intro c hc name hname
    rw [List.mem_singleton.1 hc, Check.followed, List.mem_singleton] at hname
    exact ⟨hname ▸ by decide, searchable_linkedTree ..⟩
  named := by
    intro c hc name hname
    rw [List.mem_singleton.1 hc, Check.named, List.mem_singleton] at hname
    exact ⟨hname ▸ by decide, searchable_linkedTree ..⟩
  targets := by
    intro name target hmem link hlink
    have hname : name = "l" := by
      simp only [List.mem_singleton, Check.symlink.injEq] at hmem
      exact hmem.1
    rw [hname, show linkedInspection.files.linkAt? (linkedInspection.root.below "l") = some "b" by cbv]
      at hlink
    cases hlink
    rw [hname]
    exact ⟨by decide, searchable_linkedTree ..⟩
  walk := fun hmem => by simp at hmem

/-- The link in the linked tree leads to the directory that it names. -/
theorem links_compared_of_linkedTree :
    linkedInspection.InReach [.symlink "l" "b"] ∧
    linkedInspection.files.linkAt? (linkedInspection.root.below "l") = some "b" ∧
    linkedInspection.files.SameFile (linkedInspection.root.below "l") (linkedInspection.root.below "b") ∧
    linkedInspection.Adds (.symlink "l" "b") [] := by
  have hlink : linkedInspection.files.linkAt? (linkedInspection.root.below "l") = some "b" := by cbv
  have hsame : linkedInspection.files.SameFile (linkedInspection.root.below "l")
      (linkedInspection.root.below "b") :=
    ⟨.location ["srv", "root", "b"], by cbv, by cbv⟩
  obtain ⟨found, hadds, hnothing, -, -⟩ := linkedInspection.links_compared inReach_linkedTree
  rw [hnothing "b" hlink hsame] at hadds
  exact ⟨inReach_linkedTree, hlink, hsame, hadds⟩

/-- The text of a path that goes through one link so many times, and then to a file. -/
def windingText (n : Nat) : String := PathName.joinParts (List.replicate n "d" ++ ["f"])

/-- A directory with a file and a directory that may not be searched, a link to itself, a link to the
file with a slash behind it, one that takes forty turns, and a link to the directory with a slash and a
point behind it. -/
def windingTree : FileSystem where
  top := [("pit", .directory [("f", .file 0), ("d", .link "."), ("s", .link "f/"),
    ("w", .link (windingText 40)), ("shut", .directory [("g", .file 1)]), ("p", .link "shut/.")])]
  contents := [(0, [120]), (1, [121])]
  fresh := 2
  cwd := ["pit"]
  denied := [(.search, .location ["pit", "shut"])]
  top_sound := by decide
  cwd_there := by decide

/-- The winding tree, tested from itself. -/
def windingInspection : Inspection where
  files := windingTree
  strategy := .recording
  root := PathName.ofString "."

/-- Whether something is there along a detour that is too long stays open. -/
theorem exists?_detour {n : Nat} (h : Route.sizeLimit ≤ 5 * n) :
    nestedTree.exists? ((detour n).below "deep/f") = .error .nameTooLong := by
  have hroot : (PathName.ofString "deep/f").root = .relative := by decide
  obtain ⟨hbelowRoot, hbelowParts⟩ := PathName.below_of_relative (detour n) hroot
  have hparts : ((detour n).below "deep/f").parts
      = (List.replicate n ["d", ".."]).flatten ++ ["d", "deep", "f"] := by
    rw [hbelowParts]
    exact List.append_assoc ..
  refine FileSystem.exists?_eq_error ?_ ?_
  · rw [PathName.hasNul, List.any_eq_false, hbelowParts]
    intro part hpart
    rcases List.mem_append.1 hpart with hpart | hpart
    · rcases mem_detour hpart with rfl | rfl <;> decide
    · have hnul : ((PathName.ofString "deep/f").parts.any fun part => part.toList.contains '\x00')
          = false := by decide
      exact List.any_eq_false.1 hnul part hpart
  · have hne : ((detour n).below "deep/f").parts ≠ [] := by
      rw [hparts]
      exact List.append_ne_nil_of_right_ne_nil _ (List.cons_ne_nil _ _)
    rw [FileSystem.size_render hne, hparts, size_detour n (List.cons_ne_nil _ _)]
    omega

/-- **Links that are accepted and cannot be followed**: one with a slash behind a file, one with too many
links on its way, and one with a point behind a directory that may not be searched. Checks do not complete
if a name is in such a directory or a path text is too long. -/
theorem unfollowed_accepted :
    (windingInspection.files.locate (.ofPath (windingInspection.root.below "s")) = .error .notDirectory ∧
      ∃ q, windingInspection.recording.outcome [.symlink "s" "f"] {} = (.ok (), q) ∧ q.findings = []) ∧
    (windingInspection.files.locate (.ofPath (windingInspection.root.below "w")) = .error .linkLoop ∧
      ∃ q, windingInspection.recording.outcome [.symlink "w" "f"] {} = (.ok (), q) ∧ q.findings = []) ∧
    (windingInspection.files.locate (.ofPath (windingInspection.root.below "p")) = .error .denied ∧
      ∃ q, windingInspection.recording.outcome [.symlink "p" "shut"] {} = (.ok (), q) ∧
        q.findings = []) ∧
    windingInspection.recording.outcome [.symlink "s" "shut/g"] {} = (.error (.file .denied), {}) ∧
    (detourInspection 820).recording.outcome [.symlink "deep" "deep/f"] {}
      = (.error (.file .nameTooLong), {}) := by
  refine ⟨⟨by cbv, _, by cbv, by cbv⟩, ⟨by cbv, _, by cbv, by cbv⟩, ⟨by cbv, _, by cbv, by cbv⟩, by cbv, ?_⟩
  have hacts : (detourInspection 820).recording.verifyActs ((detour 820).below "deep/f")
      = [.halt .nameTooLong] := verifyActs_of_error (exists?_detour (by decide))
  rw [outcome_eq_enact, List.flatMap_singleton, acts_symlink]
  show (detourInspection 820).recording.enact
    ((detourInspection 820).recording.verifyActs ((detour 820).below "deep/f") ++ _) {} = _
  rw [hacts, List.singleton_append, enact_cons, perform_halt]

end Inspection

end MigrationBench
