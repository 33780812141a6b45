import MigrationBench.Proofs.Files.Straight
import MigrationBench.Proofs.Tree.Reordering

/-!
# Entries of names

A name that is there adds its key to the verified paths. The file that it leads to depends on the links
on the way, the key on its text alone.

* `Inspection.LeadsTo` — a name leads to a regular file below the root.
* `Inspection.outcome_of_leadsTo` — a check for such a name adds its key and finds nothing.
* `Inspection.outcome_files_of_ok` — a check for any name that meets no fault adds its key.
* `Inspection.reported_iff` — which files the last check reports after a run.
* `Inspection.one_entry_iff` — on which trees every file has one entry, the location that it is at.
* `Inspection.two_entries` — a file with two entries.
-/

namespace MigrationBench.Inspection

variable (i : Inspection)

/-- A name leads to the regular file at a location below the root. -/
def LeadsTo (name : String) (location : List String) : Prop :=
  ∃ top es serial, i.files.locate (.ofPath i.root) = .ok (top, .directory es) ∧
    i.files.locate (.ofPath (i.root.below name)) = .ok (top ++ location, .file serial)

variable {i}

/-- A name that leads to a file has the location of the file as its key if its text leads there. -/
theorem LeadsTo.key_eq_iff {name : String} {location : List String} (h : i.LeadsTo name location) :
    i.key (i.root.below name) = PathName.joinParts location ↔
      i.files.Denotes i.root (i.root.below name) location := by
  obtain ⟨top, es, serial, hroot, hname⟩ := h
  exact FileSystem.key_eq_iff_denotes (FileSystem.node?_of_locate hname) (i.root.below name)

/-- A check for a name that leads to a file finds nothing and adds the key of the name. -/
theorem outcome_of_leadsTo {name : String} {location : List String} (h : i.LeadsTo name location)
    (p : Progress) : ∃ q, i.outcome [.files [name]] p = (.ok (), q) ∧ q.findings = p.findings ∧
      q.verified = p.verified.insert (i.key (i.root.below name)) := by
  obtain ⟨top, es, serial, -, hname⟩ := h
  have hthere : i.files.exists? (i.root.below name) = .ok true :=
    FileSystem.exists?_eq_true_iff.2 ⟨_, _, hname⟩
  refine ⟨i.remembered (i.root.below name) p, ?_, rfl, rfl⟩
  rw [outcome_eq_enact, List.flatMap_singleton, acts_files, List.flatMap_singleton,
    verifyActs_of_there hthere]
  rfl

/-- A recording check for a name, if the question whether it is there is answered, adds the key of the
name and finds it missing or not. -/
theorem outcome_files_of_ok {name : String} {there : Bool}
    (h : i.files.exists? (i.root.below name) = .ok there) (p : Progress) :
    ∃ q, i.recording.outcome [.files [name]] p = (.ok (), q) ∧
      q.findings = p.findings ++ i.files.missing i.root name ∧
      q.verified = p.verified.insert (i.key (i.root.below name)) := by
  have h' : i.recording.files.exists? (i.root.below name) = .ok there := h
  rw [outcome_eq_enact, List.flatMap_singleton, acts_files, List.flatMap_singleton,
    show i.recording.root = i.root from rfl, FileSystem.missing]
  cases there with
  | true =>
    rw [verifyActs_of_there h', if_pos (FileSystem.exists?_eq_true_iff.1 h)]
    exact ⟨i.recording.remembered (i.root.below name) p, rfl, (List.append_nil _).symm, rfl⟩
  | false =>
    have hmissing : ¬ i.files.IsThere (i.root.below name) :=
      of_decide_eq_false (FileSystem.exists?_eq_decide h).symm
    rw [verifyActs_of_missing h', if_neg hmissing, enact_cons, perform_report_recording _ rfl]
    exact ⟨i.recording.remembered (i.root.below name) (i.recording.recorded (.missing (i.root.below name)) p),
      rfl, rfl, rfl⟩

/-- A file is among the strays if the walk meets it and its path is not verified. -/
theorem mem_strays_iff {top location : List String} {node : Node}
    (h : i.files.node? (top ++ location) = some node) (verified : List String) :
    .unverified (PathName.joinParts location) ∈ i.strays verified ↔
      location ∈ FileSystem.met (i.files.walk i.root) ∧ PathName.joinParts location ∉ verified := by
  have hmem : .unverified (PathName.joinParts location) ∈ i.strays verified ↔
      PathName.joinParts location ∈ (FileSystem.met (i.files.walk i.root)).map PathName.joinParts ∧
        PathName.joinParts location ∉ verified := by
    rw [strays, List.mem_map_of_injective fun _ _ => Finding.unverified.inj, List.mem_filter,
      decide_eq_true_eq]
  rw [hmem, and_congr_left_iff]
  intro hfresh
  constructor
  · intro hseen
    obtain ⟨seen, hmet, hpath⟩ := List.mem_map.1 hseen
    obtain ⟨above, es, serial, -, hnode⟩ :=
      FileSystem.file_of_mem_walk (FileSystem.ok_mem_of_mem_met hmet)
    rwa [← PathName.joinParts_inj (FileSystem.isPart_of_node? hnode) (FileSystem.isPart_of_node? h)
      hpath]
  · exact List.mem_map_of_mem

/-- **Which files are reported after a run**: those that the walk meets, that were not verified before,
and to which the text of no verified name leads. -/
theorem reported_iff {checks : List Check} {p q : Progress}
    (h : i.recording.outcome checks p = (.ok (), q)) {top location : List String} {node : Node}
    (hnode : i.files.node? (top ++ location) = some node) :
    .unverified (PathName.joinParts location) ∈ (i.recording.lastCheck q).2 ↔
      location ∈ FileSystem.met (i.files.walk i.root) ∧ PathName.joinParts location ∉ p.verified ∧
        ∀ name ∈ checks.flatMap Check.claimed,
          ¬ i.files.Denotes i.root (i.root.below name) location := by
  obtain ⟨result, hlast⟩ := lastCheck_eq (i := i.recording) rfl
  have hnode' : i.recording.files.node? (top ++ location) = some node := hnode
  rw [hlast, mem_strays_iff hnode', i.recording.mem_verified_outcome h, not_or, Covers]
  simp only [not_exists, not_and]
  refine and_congr_right fun _ => and_congr_right fun _ => ?_
  refine forall₂_congr fun name _ => not_congr ?_
  exact FileSystem.key_eq_iff_denotes hnode (i.root.below name)

variable (i)

/-- **One file, one entry.** All names that lead to a file below the root add its location as their
entry, so that the last check does not report it, exactly if the text of each of them leads to that
location. For every single name: a check for it finds nothing and adds one entry, which is the location
if and only if its text leads there. Two names add one entry if and only if their texts lead to one
place. After a run the last check reports a file if and only if the walk meets it, it was not verified
before, and no text of a verified name leads to it. The text of a name leads to the location of its
file if in the root and in the name no `..` stands behind a link and the text names something that real
directories lead to. -/
theorem one_entry_iff :
    ((∀ first second location, i.LeadsTo first location → i.LeadsTo second location →
        ∀ p, ∃ q q', i.recording.outcome [.files [first]] p = (.ok (), q) ∧
          i.recording.outcome [.files [second]] p = (.ok (), q') ∧
          q.verified = p.verified.insert (PathName.joinParts location) ∧
          q'.verified = p.verified.insert (PathName.joinParts location) ∧
          .unverified (PathName.joinParts location) ∉ (i.recording.lastCheck q).2) ↔
      ∀ name location, i.LeadsTo name location →
        i.files.Denotes i.root (i.root.below name) location) ∧
    (∀ name location, i.LeadsTo name location → ∀ p, ∃ q,
      i.outcome [.files [name]] p = (.ok (), q) ∧ q.findings = p.findings ∧
      q.verified = p.verified.insert (i.key (i.root.below name)) ∧
      (i.key (i.root.below name) = PathName.joinParts location ↔
        i.files.Denotes i.root (i.root.below name) location)) ∧
    (∀ first second, i.key (i.root.below first) = i.key (i.root.below second) ↔
      PathName.absoluteParts i.files.cwd (i.root.below first)
        = PathName.absoluteParts i.files.cwd (i.root.below second)) ∧
    (∀ checks p q, i.recording.outcome checks p = (.ok (), q) →
      ∀ location, i.IsStray p.verified location →
        (.unverified (PathName.joinParts location) ∈ (i.recording.lastCheck q).2 ↔
          location ∈ FileSystem.met (i.files.walk i.root) ∧
            ∀ name ∈ checks.flatMap Check.claimed,
              ¬ i.files.Denotes i.root (i.root.below name) location)) ∧
    (i.files.Straight i.root →
      ∀ name location, i.LeadsTo name location → i.files.Straight (i.root.below name) →
        ∀ top es way leaf, i.files.locate (.ofPath i.root) = .ok (top, .directory es) →
          i.files.Denotes i.root (i.root.below name) way →
          i.files.node? (top ++ way) = some leaf → (∀ target, leaf ≠ .link target) →
          i.files.Denotes i.root (i.root.below name) location) := by
  have hentry : ∀ name location, i.LeadsTo name location → ∀ p, ∃ q,
      i.recording.outcome [.files [name]] p = (.ok (), q) ∧
      q.verified = p.verified.insert (i.key (i.root.below name)) := by
    intro name location hname p
    obtain ⟨q, hq, -, hverified⟩ := outcome_of_leadsTo (i := i.recording) hname p
    exact ⟨q, hq, hverified⟩
  refine ⟨⟨?_, ?_⟩, ?_, ?_, ?_, ?_⟩
  · intro hone name location hname
    obtain ⟨q, -, hq, -, hlocation, -, -⟩ := hone name name location hname hname {}
    obtain ⟨q', hq', hkey⟩ := hentry name location hname {}
    rw [hq] at hq'
    cases hq'
    rw [← hname.key_eq_iff]
    -- nothing else is verified
    exact List.singleton_inj.1 (hkey.symm.trans hlocation)
  · intro htexts first second location hfirst hsecond p
    obtain ⟨q, hq, hkey⟩ := hentry first location hfirst p
    obtain ⟨q', hq', hkey'⟩ := hentry second location hsecond p
    have hway := htexts first location hfirst
    rw [hfirst.key_eq_iff.2 hway] at hkey
    rw [hsecond.key_eq_iff.2 (htexts second location hsecond)] at hkey'
    refine ⟨q, q', hq, hq', hkey, hkey', ?_⟩
    obtain ⟨top, es, serial, -, hlocate⟩ := hfirst
    rw [reported_iff hq (FileSystem.node?_of_locate hlocate)]
    intro h'
    obtain ⟨-, -, hnone⟩ := h'
    exact hnone first (List.mem_singleton_self _) hway
  · intro name location hname p
    obtain ⟨q, hq, hfindings, hverified⟩ := outcome_of_leadsTo hname p
    exact ⟨q, hq, hfindings, hverified, hname.key_eq_iff⟩
  · intro first second
    exact PathName.key_eq_key_iff (fun _ => FileSystem.isPart_of_mem_cwd) i.root _ _
  · intro checks p q hq location hstray
    obtain ⟨top, es, serial, -, hnode, hfresh⟩ := hstray
    rw [reported_iff hq hnode, and_iff_right hfresh]
  · intro hroot name location hname hstraight top es way leaf htop hway hleaf hlink
    obtain ⟨top', es', serial, htop', hlocate⟩ := hname
    rw [htop] at htop'
    cases htop'
    exact FileSystem.denotes_of_straight hroot hstraight htop hlocate hway hleaf hlink

/-- A root with a file in a directory and a link to the directory. -/
def aliasTree : FileSystem where
  top := [("data", .directory [("root", .directory
    [("b", .directory [("f", .file 0)]), ("l", .link "b")])])]
  contents := [(0, [120])]
  fresh := 1
  cwd := ["data"]
  top_sound := by decide
  cwd_there := by decide

/-- The tree with the link, tested from its root. -/
def aliasInspection : Inspection where
  files := aliasTree
  strategy := .recording
  root := PathName.ofString "root"

theorem leadsTo_aliasTree {name : String} (h : aliasTree.locate
    (.ofPath ((PathName.ofString "root").below name)) = .ok (["data", "root", "b", "f"], .file 0)) :
    aliasInspection.LeadsTo name ["b", "f"] :=
  ⟨["data", "root"], [("b", .directory [("f", .file 0)]), ("l", .link "b")], 0, by cbv, h⟩

/-- A detour through real directories leads to the entry of the plain name. -/
theorem one_entry_of_detour : aliasInspection.LeadsTo "b/../b/f" ["b", "f"] ∧
    aliasInspection.files.Denotes aliasInspection.root (aliasInspection.root.below "b/../b/f")
      ["b", "f"] ∧
    ∃ q, aliasInspection.outcome [.files ["b/../b/f"]] {} = (.ok (), q) ∧ q.verified = ["b/f"] := by
  have hname : aliasInspection.LeadsTo "b/../b/f" ["b", "f"] := leadsTo_aliasTree (by cbv)
  have hway : aliasInspection.files.Denotes aliasInspection.root
      (aliasInspection.root.below "b/../b/f") ["b", "f"] := by
    rw [FileSystem.Denotes]
    cbv
  obtain ⟨q, hq, -, hverified, hkey⟩ :=
    aliasInspection.one_entry_iff.2.1 "b/../b/f" ["b", "f"] hname {}
  rw [hkey.2 hway] at hverified
  exact ⟨hname, hway, q, hq, hverified⟩

/-- **A file with two entries**: the name through the link leads to the same file as the plain name and
adds another entry, so that the last check reports the file. -/
theorem two_entries : aliasInspection.LeadsTo "b/f" ["b", "f"] ∧
    aliasInspection.LeadsTo "l/f" ["b", "f"] ∧
    (aliasInspection.recording.outcome [.files ["b/f"]] {}).2.verified = ["b/f"] ∧
    ∃ q, aliasInspection.recording.outcome [.files ["l/f"]] {} = (.ok (), q) ∧
      q.verified = ["l/f"] ∧
      aliasInspection.recording.lastCheck q = (.ok (), [.unverified "b/f"]) :=
  ⟨leadsTo_aliasTree (by cbv), leadsTo_aliasTree (by cbv), by cbv, _, by cbv, by cbv, by cbv⟩

end MigrationBench.Inspection
