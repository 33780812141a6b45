import MigrationBench.Proofs.Path.Texts
import MigrationBench.Proofs.Tree.Entries

/-!
# Spellings of a name

Names that spell one path below the root have one entry, and it is the text that the last check computes
for the file that a walk meets there.

* `PathName.Spells` — parts with points, empty pieces and detours put between them.
* `PathName.IsSpelling` — a name that spells parts below a root, from the root or from the top.
* `PathName.absoluteParts_of_isSpelling` — where the text of such a name leads.
* `Inspection.entries_agree` — the two computations of an entry agree on every spelling.
-/

namespace MigrationBench

namespace PathName

/-- Pieces spell some parts: points, empty pieces and detours into a directory and back are put between
the parts. -/
inductive Spells (parts : List String) : List String → Prop where
  | plain : Spells parts parts
  | idle (front behind : List String) {piece : String} : piece = "" ∨ piece = "." →
      Spells parts (front ++ behind) → Spells parts (front ++ piece :: behind)
  | detour (front behind : List String) {name : String} : IsPart name → name ≠ ".." →
      Spells parts (front ++ behind) → Spells parts (front ++ name :: ".." :: behind)

/-- A name spells some parts below a root: its pieces spell them from the root, or from the top behind
those of the root. -/
inductive IsSpelling (cwd : List String) (root : PathName) (parts : List String) : String → Prop where
  | fromRoot {texts : List String} : Spells parts texts →
      (String.intercalate "/" texts).toList.head? ≠ some '/' →
      IsSpelling cwd root parts (String.intercalate "/" texts)
  | fromTop {texts : List String} : Spells (absoluteParts cwd root ++ parts) texts →
      IsSpelling cwd root parts ("/" ++ String.intercalate "/" texts)

theorem Spells.slash_not_mem {parts texts : List String} (h : Spells parts texts)
    (hparts : ∀ part ∈ parts, IsPart part) : ∀ text ∈ texts, '/' ∉ text.toList := by
  induction h with
  | plain => exact fun text htext => (hparts text htext).slash_not_mem
  | idle front behind hidle _ ih =>
    simp only [List.forall_mem_append, List.forall_mem_cons] at ih ⊢
    refine ⟨ih.1, ?_, ih.2⟩
    rcases hidle with rfl | rfl <;> decide
  | detour front behind hname _ _ ih =>
    simp only [List.forall_mem_append, List.forall_mem_cons] at ih ⊢
    exact ⟨ih.1, hname.slash_not_mem, by decide, ih.2⟩

/-- The pieces of a text that are parts of the name that it denotes. -/
def countedPieces (texts : List String) : List String :=
  texts.filter fun piece => piece ≠ "" ∧ piece ≠ "."

theorem countedPieces_append (front behind : List String) :
    countedPieces (front ++ behind) = countedPieces front ++ countedPieces behind :=
  List.filter_append ..

theorem countedPieces_of_isPart {parts : List String} (h : ∀ part ∈ parts, IsPart part) :
    countedPieces parts = parts := by
  refine List.filter_eq_self.2 fun part hpart => decide_eq_true ⟨?_, (h part hpart).ne_point⟩
  rintro rfl
  exact (h _ hpart).ne_nil rfl

theorem countedPieces_cons_idle {piece : String} (h : piece = "" ∨ piece = ".") (behind : List String) :
    countedPieces (piece :: behind) = countedPieces behind := by
  rcases h with rfl | rfl <;> rfl

theorem countedPieces_detour {name : String} (h : IsPart name) (behind : List String) :
    countedPieces (name :: ".." :: behind) = name :: ".." :: countedPieces behind := by
  have hname : countedPieces [name] = [name] := countedPieces_of_isPart (List.forall_mem_singleton.2 h)
  rw [← List.singleton_append, countedPieces_append, hname]
  rfl

/-- A detour leads back to where it starts. -/
theorem collapse_detour (front behind : List String) {name : String} (h : name ≠ "..") :
    collapse (front ++ name :: ".." :: behind) = collapse (front ++ behind) := by
  have hback : collapse (front ++ [name, ".."]) = collapse front := by
    rw [show [name, ".."] = [name] ++ [".."] from rfl, ← List.append_assoc, collapse_snoc_parent,
      collapse_snoc front h, List.dropLast_concat]
  rw [show front ++ name :: ".." :: behind = front ++ [name, ".."] ++ behind by simp, collapse_append,
    hback, ← collapse_append]

/-- **A spelling leads where its parts lead**, from wherever. -/
theorem Spells.collapse_append {parts texts : List String} (h : Spells parts texts)
    (hparts : ∀ part ∈ parts, IsPart part) (hup : ".." ∉ parts) (base : List String) :
    collapse (base ++ countedPieces texts) = collapse base ++ parts := by
  induction h with
  | plain => rw [countedPieces_of_isPart hparts, collapse_append_of_not_mem base hup]
  | idle front behind hidle _ ih =>
    rw [countedPieces_append, countedPieces_cons_idle hidle, ← countedPieces_append]
    exact ih
  | detour front behind hname hne _ ih =>
    rw [countedPieces_append, countedPieces_detour hname, ← List.append_assoc,
      collapse_detour _ _ hne, List.append_assoc, ← countedPieces_append]
    exact ih

/-- Joined pieces denote those that count. -/
theorem parts_ofString_intercalate {texts : List String} (h : ∀ text ∈ texts, '/' ∉ text.toList) :
    (ofString (String.intercalate "/" texts)).parts = countedPieces texts := by
  rw [parts_ofString]
  by_cases hne : texts = []
  · rw [hne]
    rfl
  · rw [pieces_intercalate hne h]
    rfl

/-- **The text of a spelling** leads to the root and on along the parts. -/
theorem absoluteParts_of_isSpelling {cwd : List String} (hcwd : ∀ part ∈ cwd, IsPart part)
    {root : PathName} {parts : List String} (hparts : ∀ part ∈ parts, IsPart part)
    (hup : ".." ∉ parts) {name : String} (h : IsSpelling cwd root parts name) :
    absoluteParts cwd (root.below name) = absoluteParts cwd root ++ parts := by
  cases h with
  | @fromRoot texts hspells hrelative =>
    have hroot : (ofString (String.intercalate "/" texts)).root = .relative :=
      startOf_eq_relative_iff.2 hrelative
    obtain ⟨base, hbase, hbelow⟩ := exists_absoluteParts_below cwd root hroot
    rw [hbelow, parts_ofString_intercalate (hspells.slash_not_mem hparts),
      hspells.collapse_append hparts hup, hbase]
  | @fromTop texts hspells =>
    have hall : ∀ part ∈ absoluteParts cwd root ++ parts, IsPart part := by
      intro part hpart
      rcases List.mem_append.1 hpart with hpart | hpart
      · exact isPart_of_mem_absoluteParts hcwd root hpart
      · exact hparts part hpart
    have hallUp : ".." ∉ absoluteParts cwd root ++ parts := by
      rw [List.mem_append, not_or]
      exact ⟨parent_not_mem_absoluteParts cwd root, hup⟩
    have hroot : (ofString ("/" ++ String.intercalate "/" texts)).root ≠ .relative := fun hrelative =>
      startOf_eq_relative_iff.1 hrelative (by simp)
    have hpieces : (ofString ("/" ++ String.intercalate "/" texts)).parts = countedPieces texts := by
      rw [← parts_ofString_intercalate (hspells.slash_not_mem hall)]
      exact parts_ofString_slash "" (String.intercalate "/" texts)
    rw [below_of_absolute root hroot, absoluteParts_of_absolute cwd hroot, hpieces]
    exact hspells.collapse_append hall hallUp []

end PathName

namespace Inspection

variable (i : Inspection)

/-- **The entries of all spellings agree.** Take parts that are ordinary names. A check for a name that
spells them below the root, whenever the question whether it is there is answered, completes and adds the
joined parts and nothing else, which is the text that is computed from the texts of the name and of the root;
and the text computed for a file that a walk meets along these parts is the same. The last check reports
that file by these parts exactly if it meets it and they are not verified, so after a run in which some name
spells them it does not report it. Two names have one entry exactly if the absolute normalised texts of
their paths have the same parts. -/
theorem entries_agree {parts : List String} (hparts : ∀ part ∈ parts, PathName.IsPart part)
    (hup : ".." ∉ parts) :
    (∀ name, PathName.IsSpelling i.files.cwd i.root parts name →
      ∀ there, i.files.exists? (i.root.below name) = .ok there → ∀ p, ∃ q,
        i.recording.outcome [.files [name]] p = (.ok (), q) ∧
        q.verified = p.verified.insert (PathName.joinParts parts) ∧
        PathName.normalText (PathName.relativeText i.files.cwd (i.root.below name).render i.root.render)
          = PathName.joinParts parts) ∧
    (∀ directories last, parts = directories ++ [last] →
      PathName.walkKey? i.root directories last = some (PathName.joinParts parts)) ∧
    (∀ p, i.IsStray p.verified parts →
      (.unverified (PathName.joinParts parts) ∈ (i.recording.lastCheck p).2 ↔
        parts ∈ FileSystem.met (i.files.walk i.root))) ∧
    (∀ checks p q, i.recording.outcome checks p = (.ok (), q) →
      (∃ name ∈ checks.flatMap Check.claimed, PathName.IsSpelling i.files.cwd i.root parts name) →
      .unverified (PathName.joinParts parts) ∉ (i.recording.lastCheck q).2) ∧
    ∀ first second, i.key (i.root.below first) = i.key (i.root.below second) ↔
      PathName.namedPieces (PathName.absoluteText i.files.cwd (i.root.below first).render)
        = PathName.namedPieces (PathName.absoluteText i.files.cwd (i.root.below second).render) := by
  have hcwd : ∀ part ∈ i.files.cwd, PathName.IsPart part := fun _ => FileSystem.isPart_of_mem_cwd
  have hkey : ∀ name, PathName.IsSpelling i.files.cwd i.root parts name →
      i.key (i.root.below name) = PathName.joinParts parts := fun name hname =>
    (PathName.key_eq_joinParts_iff hcwd i.root (i.root.below name) hparts hup).2
      (PathName.absoluteParts_of_isSpelling hcwd hparts hup hname)
  obtain ⟨result, hlast⟩ := lastCheck_eq (i := i.recording) rfl
  refine ⟨?_, ?_, ?_, ?_, ?_⟩
  · intro name hname there hthere p
    obtain ⟨q, hq, -, hverified⟩ := outcome_files_of_ok hthere p
    rw [hkey name hname] at hverified
    refine ⟨q, hq, hverified, ?_⟩
    rw [← PathName.key_eq_normalText hcwd]
    exact hkey name hname
  · rintro directories last rfl
    exact PathName.walkKey?_eq i.root hparts hup
  · intro p hstray
    obtain ⟨top, es, serial, -, hnode, hfresh⟩ := hstray
    have hnode' : i.recording.files.node? (top ++ parts) = some (.file serial) := hnode
    rw [hlast, mem_strays_iff hnode']
    exact and_iff_left hfresh
  · intro checks p q hq hspelled
    obtain ⟨name, hmem, hname⟩ := hspelled
    have hverified : PathName.joinParts parts ∈ q.verified :=
      (i.recording.mem_verified_outcome hq _).2 (.inr ⟨name, hmem, hkey name hname⟩)
    rw [hlast, strays, List.mem_map_of_injective fun _ _ => Finding.unverified.inj, List.mem_filter,
      decide_eq_true_eq]
    exact fun h => h.2 hverified
  · intro first second
    rw [PathName.namedPieces_absoluteText hcwd, PathName.namedPieces_absoluteText hcwd,
      PathName.ofString_render, PathName.ofString_render]
    exact PathName.key_eq_key_iff hcwd i.root _ _

/-- The tree with the link, tested along a detour. -/
def detouredInspection : Inspection where
  files := aliasTree
  strategy := .recording
  root := PathName.ofString "root/b/..//"

/-- With empty pieces, a point and a detour over a name that is not there, from the root and from the top. -/
theorem isSpelling_of_aliasTree :
    PathName.IsSpelling ["data"] (PathName.ofString "root/b/..//") ["b", "f"] "b//./f" ∧
    PathName.IsSpelling ["data"] (PathName.ofString "root/b/..//") ["b", "f"] "//data/x/../root/b/f" := by
  constructor
  · have hspells : PathName.Spells ["b", "f"] ["b", "", ".", "f"] :=
      .idle ["b"] [".", "f"] (.inl rfl) (.idle ["b"] ["f"] (.inr rfl) .plain)
    exact .fromRoot hspells (by decide)
  · have hspells : PathName.Spells ["data", "root", "b", "f"]
        ["", "data", "x", "..", "root", "b", "f"] :=
      .idle [] ["data", "x", "..", "root", "b", "f"] (.inl rfl)
        (.detour ["data"] ["root", "b", "f"] (by decide) (by decide) .plain)
    have htop : PathName.absoluteParts ["data"] (PathName.ofString "root/b/..//") = ["data", "root"] := by
      decide
    rw [show ["data", "root", "b", "f"] = ["data", "root"] ++ ["b", "f"] from rfl, ← htop] at hspells
    exact .fromTop hspells

/-- The file in the directory has the entry that the walk computes for it, under a spelling that leads to it
and under one that leads nowhere. -/
theorem entries_of_detouredInspection : (∀ part ∈ ["b", "f"], PathName.IsPart part) ∧
    ".." ∉ ["b", "f"] ∧
    PathName.walkKey? detouredInspection.root ["b"] "f" = some "b/f" ∧
    (∃ q, detouredInspection.recording.outcome [.files ["b//./f"]] {} = (.ok (), q) ∧
      q.verified = ["b/f"] ∧ .unverified "b/f" ∉ (detouredInspection.recording.lastCheck q).2) ∧
    ∃ q, detouredInspection.recording.outcome [.files ["//data/x/../root/b/f"]] {} = (.ok (), q) ∧
      q.verified = ["b/f"] := by
  have hparts : ∀ part ∈ ["b", "f"], PathName.IsPart part := by decide
  have hup : ".." ∉ ["b", "f"] := by decide
  obtain ⟨hchecked, hwalked, -, hquiet, -⟩ := detouredInspection.entries_agree hparts hup
  obtain ⟨hfromRoot, hfromTop⟩ := isSpelling_of_aliasTree
  obtain ⟨q, hq, hverified, -⟩ := hchecked "b//./f" hfromRoot true (by cbv) {}
  obtain ⟨q', hq', hverified', -⟩ := hchecked "//data/x/../root/b/f" hfromTop false (by cbv) {}
  exact ⟨hparts, hup, hwalked ["b"] "f" rfl,
    ⟨q, hq, hverified, hquiet _ {} q hq ⟨"b//./f", List.mem_singleton_self _, hfromRoot⟩⟩,
    q', hq', hverified'⟩

end Inspection

end MigrationBench
