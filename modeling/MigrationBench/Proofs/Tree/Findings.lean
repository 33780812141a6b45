import MigrationBench.Proofs.Files.Answers
import MigrationBench.Proofs.Tree.Verified

/-!
# The findings of a recording run

* `FileSystem.missing`, `FileSystem.unexpected`, `FileSystem.mismatch`, `FileSystem.misdirected` — what
  is wrong with a name below a root, if anything.
* `Records` — acts that come to their end whatever is verified, with the findings that they record.
* `Inspection.enact_records`, `Inspection.enact_demands` — the run of such acts, and of the demands
  of the last check.
* `Inspection.quiet_of_enact` — what a run without findings has not met.
* `Inspection.records_verify_of_ok`, `Inspection.records_absence_of_ok`,
  `Inspection.records_contents_of_ok`, `Inspection.records_link_of_ok` — questions that are answered tell
  what is wrong with a name.
* `Inspection.records_verify`, `Inspection.records_contents`, `Inspection.records_link`,
  `Inspection.records_absence` — within the limits they are answered, so that every check but the last
  one records what is wrong with its names.
* `Inspection.Adds` — what a check adds to the findings of a recording run.
-/

namespace MigrationBench

/-! ### What is wrong with a name -/

namespace FileSystem

variable (fs : FileSystem) (root : PathName)

/-- A name has to be there. -/
def missing (name : String) : List Finding :=
  if fs.IsThere (root.below name) then [] else [.missing (root.below name)]

/-- A name must not be there. -/
def unexpected (name : String) : List Finding :=
  if fs.IsThere (root.below name) then [.unexpected (root.below name)] else []

/-- A file that is there has to have some text as its contents. -/
def mismatch (name text : String) : List Finding :=
  match fs.bytesAt? (root.below name) with
  | some bytes =>
    if Utf8.decodeLossy bytes = text then [] else [.contents name (Utf8.decodeLossy bytes) text]
  | none => []

/-- A name has to be a symbolic link to the file that a target leads to. -/
def misdirected (name target : String) : List Finding :=
  match fs.linkAt? (root.below name) with
  | some link =>
    if fs.SameFile ((root.below name).parent.below link) (root.below target) then []
    else [.wrongTarget name ((root.below name).parent.below link) target]
  | none => [.notLink name]

end FileSystem

/-! ### Acts that record findings -/

/-- The finding that an act reports by itself. -/
def Act.finding? : Act → Option Finding
  | .report f => some f
  | _ => none

/-- An act reads no verified path and meets no fault. -/
def Act.IsPlain : Act → Prop
  | .report _ | .remember _ => True
  | .demand _ | .halt _ => False

/-- Acts read no verified path, meet no fault and report some findings. -/
structure Records (as : List Act) (found : List Finding) : Prop where
  plain : ∀ a ∈ as, a.IsPlain
  findings : as.filterMap Act.finding? = found

namespace Records

theorem nil : Records [] [] := ⟨List.forall_mem_nil _, rfl⟩

theorem report (f : Finding) : Records [.report f] [f] := by
  refine ⟨fun a ha => ?_, rfl⟩
  rw [List.mem_singleton.1 ha]
  trivial

theorem remember (path : PathName) : Records [.remember path] [] := by
  refine ⟨fun a ha => ?_, rfl⟩
  rw [List.mem_singleton.1 ha]
  trivial

theorem append {as bs : List Act} {found found' : List Finding} (ha : Records as found)
    (hb : Records bs found') : Records (as ++ bs) (found ++ found') := by
  refine ⟨fun a h => ?_, ?_⟩
  · rcases List.mem_append.1 h with h | h
    · exact ha.plain a h
    · exact hb.plain a h
  · rw [List.filterMap_append, ha.findings, hb.findings]

theorem flatMap {α : Type} {xs : List α} {acts : α → List Act} {found : α → List Finding}
    (h : ∀ x ∈ xs, Records (acts x) (found x)) : Records (xs.flatMap acts) (xs.flatMap found) := by
  induction xs with
  | nil => exact nil
  | cons x xs ih =>
    rw [List.flatMap_cons, List.flatMap_cons]
    exact (h x (List.mem_cons_self ..)).append (ih fun y hy => h y (List.mem_cons_of_mem _ hy))

end Records

namespace Inspection

variable {i : Inspection}

/-- **Acts that record findings** come to their end and record them in order. -/
theorem enact_records (hs : i.strategy = .recording) {as : List Act} {found : List Finding}
    (h : Records as found) (p : Progress) :
    ∃ q, i.enact as p = (.ok (), q) ∧ q.findings = p.findings ++ found := by
  obtain ⟨hplain, rfl⟩ := h
  induction as generalizing p with
  | nil => exact ⟨p, rfl, (List.append_nil _).symm⟩
  | cons a as ih =>
    have ha := hplain a (List.mem_cons_self ..)
    replace ih := fun p => ih p fun a ha => hplain a (List.mem_cons_of_mem _ ha)
    rw [enact_cons]
    cases a with
    | report f =>
      rw [perform_report_recording i hs]
      obtain ⟨q, hq, hfindings⟩ := ih (i.recorded f p)
      refine ⟨q, hq, ?_⟩
      rw [hfindings]
      show (p.findings ++ [f]) ++ as.filterMap Act.finding? = p.findings ++ f :: _
      rw [List.append_assoc, List.singleton_append]
    | remember path =>
      rw [perform_remember]
      exact ih (i.remembered path p)
    | demand key => exact absurd ha (by simp [Act.IsPlain])
    | halt cause => exact absurd ha (by simp [Act.IsPlain])

/-- Demands come to their end, record the files that are not verified, and verify nothing. -/
theorem enact_demands (hs : i.strategy = .recording) (keys : List String) (p : Progress) :
    ∃ q, i.enact (keys.map .demand) p = (.ok (), q) ∧ q.verified = p.verified ∧
      q.findings = p.findings ++ (keys.filter (· ∉ p.verified)).map .unverified := by
  induction keys generalizing p with
  | nil => exact ⟨p, rfl, rfl, (List.append_nil _).symm⟩
  | cons key keys ih =>
    rw [List.map_cons, enact_cons, perform_demand]
    by_cases hkey : key ∈ p.verified
    · rw [if_pos hkey, List.filter_cons_of_neg (by simpa using hkey)]
      exact ih p
    · rw [if_neg hkey, perform_report_recording i hs, List.filter_cons_of_pos (by simpa using hkey)]
      obtain ⟨q, hq, hverified, hfindings⟩ := ih (i.recorded (.unverified key) p)
      refine ⟨q, hq, hverified, ?_⟩
      rw [hfindings]
      show (p.findings ++ [Finding.unverified key]) ++ _ = p.findings ++ Finding.unverified key :: _
      rw [List.append_assoc, List.singleton_append]
      rfl

/-- A name whose verification meets no fault and reports nothing is there. -/
theorem isThere_of_quiet {path : PathName} (hreport : ∀ f, .report f ∉ i.verifyActs path)
    (hhalt : ∀ cause, .halt cause ∉ i.verifyActs path) : i.files.IsThere path := by
  rw [← FileSystem.exists?_eq_true_iff]
  cases hthere : i.files.exists? path with
  | error cause =>
    rw [verifyActs_of_error hthere] at hhalt
    exact absurd (List.mem_singleton_self _) (hhalt cause)
  | ok there =>
    cases there with
    | true => rfl
    | false =>
      rw [verifyActs_of_missing hthere] at hreport
      exact absurd (List.mem_cons_self ..) (hreport (.missing path))

/-- A recording run without findings has reported nothing, and every file that it demanded is
verified. -/
theorem quiet_of_enact (hs : i.strategy = .recording) {as : List Act} {p q : Progress}
    (h : i.enact as p = (.ok (), q)) (hq : q.findings = []) :
    (∀ f, .report f ∉ as) ∧ ∀ key, .demand key ∈ as → key ∈ q.verified := by
  have hrecording : i.recording = i := by
    cases i
    cases hs
    rfl
  have hgrow : ∀ {as : List Act} {p : Progress} (f : Finding),
      i.enact as (i.recorded f p) ≠ (.ok (), q) := by
    intro as p f hend
    obtain ⟨found, hfound, -⟩ := i.enact_raising_of_recording as (i.recorded f p)
    rw [hrecording, hend, hq] at hfound
    have hsize := congrArg List.length hfound
    simp [recorded] at hsize
  induction as generalizing p with
  | nil => simp
  | cons a as ih =>
    rw [enact_cons] at h
    cases a with
    | report f =>
      rw [perform_report_recording i hs] at h
      exact absurd h (hgrow f)
    | remember path =>
      rw [perform_remember] at h
      obtain ⟨hreport, hdemand⟩ := ih h
      refine ⟨fun f => ?_, fun key => ?_⟩
      · simpa using hreport f
      · simpa using hdemand key
    | demand key =>
      rw [perform_demand] at h
      by_cases hkey : key ∈ p.verified
      · rw [if_pos hkey] at h
        obtain ⟨hreport, hdemand⟩ := ih h
        have hlast : key ∈ q.verified := by
          have hsub := i.verified_subset_enact as p hkey
          rwa [show i.enact as p = (.ok (), q) from h] at hsub
        refine ⟨fun f => ?_, fun key' hmem => ?_⟩
        · simpa using hreport f
        · rcases List.mem_cons.1 hmem with hmem | hmem
          · cases hmem
            exact hlast
          · exact hdemand key' hmem
      · rw [if_neg hkey, perform_report_recording i hs] at h
        exact absurd h (hgrow _)
    | halt cause =>
      rw [perform_halt] at h
      cases h

/-! ### What checks record -/

/-- An answered question about a name tells whether the name is missing. -/
theorem records_verify_of_ok {name : String} {there : Bool}
    (h : i.files.exists? (i.root.below name) = .ok there) :
    Records (i.verifyActs (i.root.below name)) (i.files.missing i.root name) := by
  rw [verifyActs, h, FileSystem.exists?_eq_decide h, FileSystem.missing]
  by_cases hthere : i.files.IsThere (i.root.below name)
  · rw [decide_eq_true hthere, if_pos hthere]
    exact .remember _
  · rw [decide_eq_false hthere, if_neg hthere]
    exact (Records.report _).append (.remember _)

theorem records_verify (hlinks : i.files.ShortLinks) {name : String}
    (h : i.files.InReach true (i.root.below name)) :
    Records (i.verifyActs (i.root.below name)) (i.files.missing i.root name) :=
  records_verify_of_ok (FileSystem.exists?_eq_ok hlinks h)

theorem records_absence_of_ok {name : String} {there : Bool}
    (h : i.files.exists? (i.root.below name) = .ok there) :
    Records (i.absenceActs (i.root.below name)) (i.files.unexpected i.root name) := by
  rw [absenceActs, h, FileSystem.exists?_eq_decide h, FileSystem.unexpected]
  by_cases hthere : i.files.IsThere (i.root.below name)
  · rw [decide_eq_true hthere, if_pos hthere]
    exact .report _
  · rw [decide_eq_false hthere, if_neg hthere]
    exact .nil

theorem records_absence (hlinks : i.files.ShortLinks) {name : String}
    (h : i.files.InReach true (i.root.below name)) :
    Records (i.absenceActs (i.root.below name)) (i.files.unexpected i.root name) :=
  records_absence_of_ok (FileSystem.exists?_eq_ok hlinks h)

/-- Contents are compared where the name leads to a regular file or nowhere. -/
theorem records_contents_of_ok {name : String} {there : Bool} (text : String)
    (h : i.files.exists? (i.root.below name) = .ok there)
    (hfile : i.files.IsThere (i.root.below name) → i.files.bytesAt? (i.root.below name) ≠ none) :
    Records (i.contentsActs name text) (i.files.mismatch i.root name text) := by
  rw [contentsActs, h, FileSystem.exists?_eq_decide h, FileSystem.mismatch]
  by_cases hthere : i.files.IsThere (i.root.below name)
  · obtain ⟨bytes, hbytes⟩ := Option.ne_none_iff_exists'.1 (hfile hthere)
    rw [decide_eq_true hthere, hbytes]
    show Records (Act.upon (i.files.read (i.root.below name)) _) _
    rw [FileSystem.read_eq_ok hbytes]
    show Records (if Utf8.decodeLossy bytes ≠ text then _ else [])
      (if Utf8.decodeLossy bytes = text then [] else _)
    by_cases htext : Utf8.decodeLossy bytes = text
    · rw [if_neg (not_not_intro htext), if_pos htext]
      exact .nil
    · rw [if_pos htext, if_neg htext]
      exact .report _
  · have hnone : i.files.bytesAt? (i.root.below name) = none := by
      rw [Option.eq_none_iff_forall_ne_some]
      intro bytes hbytes
      exact hthere (FileSystem.isThere_of_bytesAt? hbytes)
    rw [decide_eq_false hthere, hnone]
    exact .nil

/-- Two paths about which both questions are answered agree if they lead to one file. -/
theorem agree_eq {p q : PathName} {a b : Bool} (hp : i.files.exists? p = .ok a)
    (hq : i.files.exists? q = .ok b) : i.files.agree p q = .ok (decide (i.files.SameFile p q)) := by
  rw [FileSystem.agree, hp, hq, FileSystem.exists?_eq_decide hp, FileSystem.exists?_eq_decide hq]
  by_cases hp' : i.files.IsThere p
  · by_cases hq' : i.files.IsThere q
    · rw [decide_eq_true hp', decide_eq_true hq']
      exact FileSystem.sameFile_eq_ok hp' hq'
    · have hsame : ¬ i.files.SameFile p q := by
        intro h'
        obtain ⟨file, -, hfile⟩ := h'
        exact hq' (FileSystem.isThere_of_identityAt? hfile)
      rw [decide_eq_true hp', decide_eq_false hq', decide_eq_false hsame]
      rfl
  · have hsame : ¬ i.files.SameFile p q := by
      intro h'
      obtain ⟨file, hfile, -⟩ := h'
      exact hp' (FileSystem.isThere_of_identityAt? hfile)
    rw [decide_eq_false hp', decide_eq_false hsame]
    rfl

theorem agree_eq_ok (hlinks : i.files.ShortLinks) {p q : PathName} (hp : i.files.InReach true p)
    (hq : i.files.InReach true q) : i.files.agree p q = .ok (decide (i.files.SameFile p q)) :=
  agree_eq (FileSystem.exists?_eq_ok hlinks hp) (FileSystem.exists?_eq_ok hlinks hq)

/-- An answer about a link, and one about its target if it is one, tell what is wrong with the link. -/
theorem records_link_of_ok {name target : String} {link : Option String}
    (h : i.files.linkTarget? (i.root.below name) = .ok link)
    (hsame : ∀ text, link = some text → i.files.agree (i.reached name text) (i.root.below target)
      = .ok (decide (i.files.SameFile (i.reached name text) (i.root.below target)))) :
    Records (i.linkActs name target) (i.files.misdirected i.root name target) := by
  rw [linkActs, h, FileSystem.misdirected, ← FileSystem.linkTarget?_eq_linkAt? h]
  cases link with
  | none => exact .report _
  | some text =>
    show Records (Act.upon (i.files.agree (i.reached name text) (i.root.below target)) _) _
    rw [hsame text rfl]
    show Records (if decide (i.files.SameFile (i.reached name text) (i.root.below target)) then _
      else _) (if i.files.SameFile (i.reached name text) (i.root.below target) then _ else _)
    by_cases hsame : i.files.SameFile (i.reached name text) (i.root.below target)
    · rw [decide_eq_true hsame, if_pos hsame]
      exact .nil
    · rw [decide_eq_false hsame, if_neg hsame]
      exact .report _

/-- The path that the target of a link stands for has to be in reach as well. -/
theorem records_link (hlinks : i.files.ShortLinks) {name target : String}
    (h : i.files.InReach false (i.root.below name))
    (htarget : i.files.InReach true (i.root.below target))
    (hreached : ∀ link, i.files.linkAt? (i.root.below name) = some link →
      i.files.InReach true ((i.root.below name).parent.below link)) :
    Records (i.linkActs name target) (i.files.misdirected i.root name target) :=
  records_link_of_ok (FileSystem.linkTarget?_eq_ok hlinks h) fun link hlink =>
    agree_eq_ok hlinks (hreached link hlink) htarget

/-! ### What a check adds -/

variable (i) in
/-- A recording run of a check completes and adds some findings, whatever was found before. -/
def Adds (c : Check) (found : List Finding) : Prop :=
  ∀ p, ∃ q, i.recording.outcome [c] p = (.ok (), q) ∧ q.findings = p.findings ++ found

theorem adds_of_records {c : Check} {found : List Finding} (h : Records (i.acts c) found) :
    i.Adds c found := by
  intro p
  rw [outcome_eq_enact, List.flatMap_singleton, acts_recording]
  exact enact_records rfl h p

/-- A check adds one list of findings. -/
theorem Adds.unique {c : Check} {found found' : List Finding} (h : i.Adds c found)
    (h' : i.Adds c found') : found = found' := by
  obtain ⟨q, hq, hfound⟩ := h {}
  obtain ⟨q', hq', hfound'⟩ := h' {}
  rw [hq] at hq'
  cases hq'
  exact List.append_cancel_left (hfound.symm.trans hfound')

end Inspection

end MigrationBench
