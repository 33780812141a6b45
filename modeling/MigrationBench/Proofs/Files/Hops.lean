import MigrationBench.Proofs.Files.Answers
import MigrationBench.Proofs.Path.Texts

/-!
# Links on the way

The resolution of a path with its links counted, along directories that may be searched. It tells when a
path has more links on its way than are followed, and it compares a link with the path that its text
stands for in the directory of the link.

* `FileSystem.ResolvesIn` — what parts lead to through so many links.
* `FileSystem.Resolves.exists_resolvesIn` — the links that a resolution has followed can be counted.
* `FileSystem.ResolvesIn.exists_stretch` — the links are followed one after another, and a way along
  real directories is left.
* `FileSystem.ResolvesIn.follow_eq`, `FileSystem.ResolvesIn.follow_append` — what the resolution makes
  of such parts and of others behind them.
* `FileSystem.ResolvesIn.without_idles`, `FileSystem.ResolvesIn.follow_with_idles` — idle parts on the way
  do not count, but at the end they ask for a directory.
* `FileSystem.follow_named`, `FileSystem.follow_route` — a text as a route and as a path name.
* `FileSystem.locate_reached`, `FileSystem.locate_link` — a link against the path that its text stands
  for.
-/

namespace MigrationBench

/-- Nothing or a point comes after the last slash of a text, which asks for a directory. -/
def Route.AsksForDirectory (text : String) : Prop :=
  ∃ last ∈ (Text.cutAt '/' text.toList).getLast?, last = [] ∨ last = ['.']

namespace FileSystem

variable (fs : FileSystem)

/-- What some parts lead to from a directory, through so many links. Every part but an empty one is
looked up in a directory that may be searched. -/
inductive ResolvesIn : Nat → List String → List String → List String → Node → Prop where
  | here {base : List String} {node : Node} :
      fs.node? base = some node → ResolvesIn 0 base [] base node
  | idle {n : Nat} {base ahead location : List String} {part : String} {node : Node} :
      IsIdle part → (part ≠ "" → fs.maySearch base = true) →
      ResolvesIn n base ahead location node → ResolvesIn n base (part :: ahead) location node
  | up {n : Nat} {base ahead location : List String} {node : Node} :
      fs.maySearch base = true → ResolvesIn n base.dropLast ahead location node →
      ResolvesIn n base (".." :: ahead) location node
  | step {n : Nat} {base ahead location : List String} {part : String} {next node : Node} :
      IsStep part → fs.maySearch base = true → fs.node? (base ++ [part]) = some next →
      (∀ target, next ≠ .link target) → (ahead ≠ [] → next.isDirectory = true) →
      ResolvesIn n (base ++ [part]) ahead location node →
      ResolvesIn n base (part :: ahead) location node
  | link {n : Nat} {base ahead location : List String} {part target : String} {node : Node} :
      IsStep part → fs.maySearch base = true → fs.node? (base ++ [part]) = some (.link target) →
      ResolvesIn n (if (Route.ofText target).isAbsolute then [] else base)
        ((Route.ofText target).parts ++ ahead) location node →
      ResolvesIn (n + 1) base (part :: ahead) location node

variable {fs}

/-- The text of a link goes on from a directory. -/
theorem isDirectoryAt_target {above : List String} {name text : String}
    (h : fs.node? (above ++ [name]) = some (.link text)) :
    fs.IsDirectoryAt (if (Route.ofText text).isAbsolute then [] else above) := by
  split
  · exact isDirectoryAt_nil
  · exact .of_snoc h

/-- The resolution sees of its parts only how far they lead along real directories. -/
theorem follow_congr {base parts base' parts' : List String}
    (h : fs.advance base parts = fs.advance base' parts') (final : Bool) (links : Nat) :
    fs.follow final links base parts = fs.follow final links base' parts' := by
  cases links with
  | zero => rw [follow, follow, h]
  | succ links => rw [follow, follow, h]

theorem follow_of_fault {base parts : List String} {cause : FileFault}
    (h : fs.advance base parts = .fault cause) (final : Bool) (links : Nat) :
    fs.follow final links base parts = .error cause := by
  cases links with
  | zero => rw [follow, h]
  | succ links => rw [follow, h]

/-- A link on the way is followed by its text, if one more link may be followed. -/
theorem follow_of_link {base parts above ahead : List String} {name target : String}
    (h : fs.advance base parts = .link above name target ahead) {final : Bool}
    (hfinal : ahead = [] → final = true) :
    fs.follow final 0 base parts = .error .linkLoop ∧ ∀ links,
      fs.follow final (links + 1) base parts
        = fs.follow final links (if (Route.ofText target).isAbsolute then [] else above)
          ((Route.ofText target).parts ++ ahead) := by
  have hfollowed : (decide (ahead = []) && !final) = false := by
    by_cases hnil : ahead = []
    · rw [hfinal hnil, Bool.not_true, Bool.and_false]
    · rw [decide_eq_false hnil, Bool.false_and]
  constructor
  · rw [follow, h]
    simp only [hfollowed, Bool.false_eq_true, if_false]
  · intro links
    rw [follow, h]
    simp only [hfollowed, Bool.false_eq_true, if_false]

/-- The first part that is looked up on a way is looked up in a directory that may be searched. -/
theorem maySearch_of_follow {final : Bool} {links : Nat} {base ahead : List String} {part : String}
    {place : Place} (h : fs.follow final links base (part :: ahead) = .ok place) (hempty : part ≠ "") :
    fs.maySearch base = true := by
  by_contra hsearch
  rw [Bool.not_eq_true] at hsearch
  rw [follow_of_fault (advance_closed hempty hsearch ahead)] at h
  cases h

/-- **The links on a way can be counted**, if the resolution has followed them. -/
theorem Resolves.exists_resolvesIn {base parts location : List String} {node : Node}
    (h : fs.Resolves true base parts location node) {final : Bool} {links : Nat} {rest : List String}
    {place : Place} (hfollow : fs.follow final links base (parts ++ rest) = .ok place)
    (hfinal : rest = [] → final = true) :
    ∃ n ≤ links, fs.ResolvesIn n base parts location node := by
  induction h generalizing links with
  | here hnode => exact ⟨0, Nat.zero_le _, .here hnode⟩
  | idle hidle _ ih =>
    have hsearch := maySearch_of_follow hfollow
    rw [List.cons_append, follow_congr (advance_idle hidle hsearch _)] at hfollow
    obtain ⟨n, hn, hin⟩ := ih hfollow
    exact ⟨n, hn, .idle hidle hsearch hin⟩
  | up hparent _ ih =>
    subst hparent
    have hsearch := maySearch_of_follow hfollow (by decide)
    rw [List.cons_append, follow_congr (advance_up hsearch _)] at hfollow
    obtain ⟨n, hn, hin⟩ := ih hfollow
    exact ⟨n, hn, .up hsearch hin⟩
  | @step base ahead location part next node hs hnext hlink hdir hrest ih =>
    have hsearch := maySearch_of_follow hfollow hs.ne_empty
    by_cases hnextDir : next.isDirectory = true
    · obtain ⟨es, rfl⟩ := isDirectory_iff.1 hnextDir
      rw [List.cons_append, follow_congr (advance_directory hs hsearch hnext _)] at hfollow
      obtain ⟨n, hn, hin⟩ := ih hfollow
      exact ⟨n, hn, .step hs hsearch hnext hlink hdir hin⟩
    · -- what is no directory ends the way
      have hnil : ahead = [] := by
        by_contra hne
        exact hnextDir (hdir hne)
      subst hnil
      cases hrest with
      | here hnode => exact ⟨0, Nat.zero_le _, .step hs hsearch hnext hlink hdir (.here hnode)⟩
  | @link base ahead location part target node hs hnext _ _ ih =>
    have hsearch := maySearch_of_follow hfollow hs.ne_empty
    have hend : ahead ++ rest = [] → final = true := fun hnil =>
      hfinal (List.append_eq_nil_iff.1 hnil).2
    obtain ⟨hnone, hmore⟩ := follow_of_link (advance_at_link hs hsearch hnext (ahead ++ rest)) hend
    cases links with
    | zero =>
      rw [List.cons_append, hnone] at hfollow
      cases hfollow
    | succ links =>
      rw [List.cons_append, hmore, ← List.append_assoc] at hfollow
      obtain ⟨n, hn, hin⟩ := ih hfollow
      exact ⟨n + 1, Nat.succ_le_succ hn, .link hs hsearch hnext hin⟩
  | named hfalse => cases hfalse

namespace ResolvesIn

variable {n : Nat} {base parts location : List String} {node : Node}

/-- The way along real directories to the place, or to the first link. -/
theorem advance_cases (h : fs.ResolvesIn n base parts location node) :
    (n = 0 ∧ fs.advance base parts = .place ⟨location, some node⟩) ∨
    ∃ m above name target ahead, n = m + 1 ∧
      fs.advance base parts = .link above name target ahead ∧
      fs.ResolvesIn m (if (Route.ofText target).isAbsolute then [] else above)
        ((Route.ofText target).parts ++ ahead) location node := by
  induction h with
  | here hnode => exact .inl ⟨rfl, by rw [advance_nil, hnode]⟩
  | idle hidle hsearch _ ih =>
    rw [advance_idle hidle hsearch]
    exact ih
  | up hsearch _ ih =>
    rw [advance_up hsearch]
    exact ih
  | @step n base ahead location part next node hs hsearch hnext hlink hdir hrest ih =>
    cases hnextDir : next.isDirectory with
    | true =>
      obtain ⟨es, rfl⟩ := isDirectory_iff.1 hnextDir
      rw [advance_directory hs hsearch hnext]
      exact ih
    | false =>
      -- what is no directory ends the way
      have hnil : ahead = [] := by
        by_contra hne
        rw [hdir hne] at hnextDir
        cases hnextDir
      subst hnil
      cases hrest with
      | here hnode =>
        rw [hnext] at hnode
        cases hnode
        exact .inl ⟨rfl, by rw [advance_at_end hs hsearch hnext hnextDir hlink, if_pos rfl]⟩
  | @link n base ahead location part target node hs hsearch hnext h _ =>
    exact .inr ⟨n, base, part, target, ahead, rfl, advance_at_link hs hsearch hnext ahead, h⟩

/-- Behind the links that are counted, the way goes on along real directories. It fails if more links
would have to be followed than may be. -/
theorem exists_stretch (h : fs.ResolvesIn n base parts location node) :
    ∃ above ahead, fs.advance above ahead = .place ⟨location, some node⟩ ∧
      (fs.IsDirectoryAt base → fs.IsDirectoryAt above) ∧
      ∀ final rest, (rest = [] → final = true) → ∀ links,
        fs.follow final links base (parts ++ rest)
          = if n ≤ links then fs.follow final (links - n) above (ahead ++ rest)
            else .error .linkLoop := by
  induction n generalizing base parts with
  | zero =>
    rcases h.advance_cases with ⟨-, hplace⟩ | ⟨m, above, name, target, ahead, hm, -⟩
    · refine ⟨base, parts, hplace, id, fun final rest _ links => ?_⟩
      rw [if_pos (Nat.zero_le _), Nat.sub_zero]
    · cases hm
  | succ n ih =>
    rcases h.advance_cases with ⟨hzero, -⟩ | ⟨m, above, name, target, ahead, hm, hlink, hrest⟩
    · cases hzero
    · cases hm
      obtain ⟨-, -, -, hnode⟩ := link_of_advance hlink
      obtain ⟨top, way, hplace, hdir, hfollow⟩ := ih hrest
      refine ⟨top, way, hplace, fun _ => hdir (isDirectoryAt_target hnode), ?_⟩
      intro final rest hfinal links
      obtain ⟨hnone, hmore⟩ := follow_of_link (advance_link_append hlink rest) fun hnil =>
        hfinal (List.append_eq_nil_iff.1 hnil).2
      cases links with
      | zero => rw [hnone, if_neg (by omega)]
      | succ links =>
        rw [hmore, ← List.append_assoc, hfollow final rest hfinal links, Nat.add_sub_add_right]
        simp only [Nat.add_le_add_iff_right]

/-- **The resolution of counted parts**, with others behind them if they lead to a directory. -/
theorem follow_append {es : List (String × Node)}
    (h : fs.ResolvesIn n base parts location (.directory es)) {final : Bool} {rest : List String}
    (hfinal : rest = [] → final = true) (links : Nat) :
    fs.follow final links base (parts ++ rest)
      = if n ≤ links then fs.follow final (links - n) location rest else .error .linkLoop := by
  obtain ⟨above, ahead, hplace, -, hfollow⟩ := h.exists_stretch
  rw [hfollow final rest hfinal, follow_congr (advance_append hplace rest)]

/-- **The resolution of counted parts** leads where they lead, if there are not more links than may be
followed. -/
theorem follow_eq (h : fs.ResolvesIn n base parts location node) (links : Nat) :
    fs.follow true links base parts
      = if n ≤ links then .ok ⟨location, some node⟩ else .error .linkLoop := by
  obtain ⟨above, ahead, hplace, -, hfollow⟩ := h.exists_stretch
  have hall := hfollow true [] (fun _ => rfl) links
  rwa [List.append_nil, List.append_nil, follow_of_advance hplace] at hall

theorem node?_eq (h : fs.ResolvesIn n base parts location node) : fs.node? location = some node := by
  have hfollow := h.follow_eq n
  rw [if_pos (Nat.le_refl n)] at hfollow
  exact (resolves_of_follow hfollow).node?_eq

/-- Behind something that is no directory no way goes on. -/
theorem advance_through (hbase : fs.IsDirectoryAt base)
    (h : fs.advance base parts = .place ⟨location, some node⟩) (hnode : node.isDirectory = false)
    {rest : List String} (hrest : rest ≠ []) :
    fs.advance base (parts ++ rest) = .fault .notDirectory := by
  rcases place_of_advance h with ⟨hway, hthere⟩ | ⟨dir, part, rfl, hway, hs, hsearch, hthere, -, hlink⟩
  · -- the way ends in a directory
    obtain ⟨es, hes⟩ := hway.isDirectoryAt hbase
    rw [hes] at hthere
    cases hthere
    cases hnode
  · rw [(hway.append rest).advance_eq, List.singleton_append,
      advance_at_end hs hsearch hthere hnode hlink, if_neg hrest]

/-- The resolution of counted parts that lead to no directory, with others behind them. -/
theorem follow_through (hbase : fs.IsDirectoryAt base) (h : fs.ResolvesIn n base parts location node)
    (hnode : node.isDirectory = false) {rest : List String} (hrest : rest ≠ []) (links : Nat) :
    fs.follow true links base (parts ++ rest)
      = if n ≤ links then .error .notDirectory else .error .linkLoop := by
  obtain ⟨above, ahead, hplace, hdir, hfollow⟩ := h.exists_stretch
  rw [hfollow true rest (fun _ => rfl),
    follow_of_fault (advance_through (hdir hbase) hplace hnode hrest)]

/-! ### Idle parts on the way -/

/-- A way that looks anything up starts in a directory that may be searched. -/
theorem maySearch_of_mem (h : fs.ResolvesIn n base parts location node) {part : String}
    (hpart : part ∈ parts) (hempty : part ≠ "") : fs.maySearch base = true := by
  induction h with
  | here _ => cases hpart
  | @idle _ _ _ _ first _ _ hsearch _ ih =>
    by_cases hfirst : first = ""
    · subst hfirst
      exact ih ((List.mem_cons.1 hpart).resolve_left hempty)
    · exact hsearch hfirst
  | up hsearch => exact hsearch
  | step _ hsearch => exact hsearch
  | link _ hsearch => exact hsearch

/-- An idle part on the way can be left out. -/
theorem without_idle {front behind : List String} {part : String} (hidle : IsIdle part)
    (h : fs.ResolvesIn n base (front ++ part :: behind) location node) :
    fs.ResolvesIn n base (front ++ behind) location node := by
  generalize hall : front ++ part :: behind = all at h
  -- on the way: the parts of a link come before what is in front of the idle part
  induction h generalizing front with
  | here _ => exact absurd hall (by simp)
  | idle hfirst hsearch h ih =>
    cases front with
    | nil =>
      cases hall
      exact h
    | cons first front =>
      cases hall
      exact .idle hfirst hsearch (ih rfl)
  | up hsearch h ih =>
    cases front with
    | nil =>
      cases hall
      exact absurd rfl hidle.ne_parent
    | cons first front =>
      cases hall
      exact .up hsearch (ih rfl)
  | step hs hsearch hnext hlink hdir h ih =>
    cases front with
    | nil =>
      cases hall
      exact absurd hidle hs.not_isIdle
    | cons first front =>
      cases hall
      exact .step hs hsearch hnext hlink (fun _ => hdir (by simp)) (ih rfl)
  | @link _ _ _ _ _ target _ hs hsearch hnext h ih =>
    cases front with
    | nil =>
      cases hall
      exact absurd hidle hs.not_isIdle
    | cons first front =>
      cases hall
      have hgo := @ih ((Route.ofText target).parts ++ front) (List.append_assoc ..)
      rw [List.append_assoc] at hgo
      exact .link hs hsearch hnext hgo

/-- An idle part can be put on the way, in front of one that is looked up. -/
theorem with_idle {front behind : List String} {part next : String} (hidle : IsIdle part)
    (hnext : next ∈ behind) (hempty : next ≠ "")
    (h : fs.ResolvesIn n base (front ++ behind) location node) :
    fs.ResolvesIn n base (front ++ part :: behind) location node := by
  have hfirst : ∀ {n base}, fs.ResolvesIn n base behind location node →
      fs.ResolvesIn n base (part :: behind) location node := fun h =>
    .idle hidle (fun _ => h.maySearch_of_mem hnext hempty) h
  generalize hall : front ++ behind = all at h
  induction h generalizing front with
  | here hnode =>
    obtain ⟨rfl, rfl⟩ := List.append_eq_nil_iff.1 hall
    cases hnext
  | idle hother hsearch h ih =>
    cases front with
    | nil =>
      subst hall
      exact hfirst (.idle hother hsearch h)
    | cons first front =>
      cases hall
      exact .idle hother hsearch (ih hfirst rfl)
  | up hsearch h ih =>
    cases front with
    | nil =>
      subst hall
      exact hfirst (.up hsearch h)
    | cons first front =>
      cases hall
      exact .up hsearch (ih hfirst rfl)
  | step hs hsearch hthere hlink hdir h ih =>
    cases front with
    | nil =>
      subst hall
      exact hfirst (.step hs hsearch hthere hlink hdir h)
    | cons first front =>
      cases hall
      refine .step hs hsearch hthere hlink (fun _ => hdir ?_) (ih hfirst rfl)
      exact List.append_ne_nil_of_right_ne_nil _ (List.ne_nil_of_mem hnext)
  | @link _ _ _ _ _ target _ hs hsearch hthere h ih =>
    cases front with
    | nil =>
      subst hall
      exact hfirst (.link hs hsearch hthere h)
    | cons first front =>
      cases hall
      have hgo := @ih ((Route.ofText target).parts ++ front) hfirst (List.append_assoc ..)
      rw [List.append_assoc] at hgo
      exact .link hs hsearch hthere hgo

/-- All idle parts can be left out. -/
theorem without_idles {front : List String} (parts : List String)
    (h : fs.ResolvesIn n base (front ++ parts) location node) :
    fs.ResolvesIn n base (front ++ parts.filter (¬ IsIdle ·)) location node := by
  induction parts generalizing front with
  | nil => exact h
  | cons part parts ih =>
    by_cases hidle : IsIdle part
    · rw [List.filter_cons_of_neg (by simpa using hidle)]
      exact ih (h.without_idle hidle)
    · rw [List.filter_cons_of_pos (by simpa using hidle), List.append_cons]
      rw [List.append_cons] at h
      exact ih h

/-- Idle parts that are not at the end can be put back. -/
theorem with_idles {front : List String} (parts : List String)
    (hlast : ∀ last ∈ parts.getLast?, ¬ IsIdle last)
    (h : fs.ResolvesIn n base (front ++ parts.filter (¬ IsIdle ·)) location node) :
    fs.ResolvesIn n base (front ++ parts) location node := by
  induction parts generalizing front with
  | nil => exact h
  | cons part parts ih =>
    have hrest : ∀ last ∈ parts.getLast?, ¬ IsIdle last := by
      cases parts with
      | nil => exact fun last hnone => by cases hnone
      | cons next parts => rwa [List.getLast?_cons_cons] at hlast
    by_cases hidle : IsIdle part
    · rw [List.filter_cons_of_neg (by simpa using hidle)] at h
      rcases List.eq_nil_or_concat parts with rfl | ⟨before, last, rfl⟩
      · exact absurd hidle (hlast part rfl)
      · rw [List.concat_eq_append] at hrest h ih ⊢
        have hnot := hrest last (by rw [List.getLast?_concat]; rfl)
        exact (ih hrest h).with_idle hidle (by simp) (fun hempty => hnot (.inl hempty))
    · rw [List.filter_cons_of_pos (by simpa using hidle), List.append_cons] at h
      rw [List.append_cons]
      exact ih hrest h

/-- Parts that end in idle ones are others with these behind them. -/
theorem exists_ending (parts : List String) : ∃ front ending, parts = front ++ ending ∧
    (∀ part ∈ ending, IsIdle part) ∧ (∀ last ∈ front.getLast?, ¬ IsIdle last) ∧
    parts.filter (¬ IsIdle ·) = front.filter (¬ IsIdle ·) := by
  induction parts using List.reverseRecOn with
  | nil => exact ⟨[], [], rfl, List.forall_mem_nil _, (fun _ hnone => nomatch hnone), rfl⟩
  | append_singleton parts last ih =>
    by_cases hidle : IsIdle last
    · obtain ⟨front, ending, rfl, hending, hlast, hfilter⟩ := ih
      refine ⟨front, ending ++ [last], List.append_assoc .., ?_, hlast, ?_⟩
      · rw [List.forall_mem_append]
        exact ⟨hending, List.forall_mem_singleton.2 hidle⟩
      · rw [List.filter_append, hfilter, List.filter_cons_of_neg (by simpa using hidle)]
        exact List.append_nil _
    · refine ⟨parts ++ [last], [], (List.append_nil _).symm, List.forall_mem_nil _, ?_, rfl⟩
      rw [List.getLast?_concat]
      rintro _ ⟨⟩
      exact hidle

/-- Idle parts lead nowhere else, or they are denied. -/
theorem advance_idles (fs : FileSystem) {ending : List String} (h : ∀ part ∈ ending, IsIdle part)
    (base : List String) :
    fs.advance base ending = .place ⟨base, fs.node? base⟩ ∨
      fs.advance base ending = .fault .denied := by
  induction ending with
  | nil => exact .inl (advance_nil fs base)
  | cons part ending ih =>
    obtain ⟨hidle, hrest⟩ := List.forall_mem_cons.1 h
    by_cases hsearch : part ≠ "" → fs.maySearch base = true
    · rw [advance_idle hidle hsearch]
      exact ih hrest
    · rw [Classical.not_imp, Bool.not_eq_true] at hsearch
      exact .inr (advance_closed hsearch.1 hsearch.2 ending)

/-- **The idle parts of some parts** count only at their end: if the parts without them lead somewhere,
then with them they lead there as well, as long as no more links are on the way than may be followed, and
the idle parts at the end, if there are some, have a directory before them in which they may be looked
up. -/
theorem follow_with_idles (hbase : fs.IsDirectoryAt base) {parts : List String}
    (h : fs.ResolvesIn n base (parts.filter (¬ IsIdle ·)) location node) (links : Nat) :
    fs.follow true links base parts = .ok ⟨location, some node⟩ ∨
      fs.follow true links base parts = .error .linkLoop ∨
      (fs.follow true links base parts = .error .notDirectory ∨
        fs.follow true links base parts = .error .denied) ∧ ∃ last ∈ parts.getLast?, IsIdle last := by
  obtain ⟨front, ending, rfl, hending, hlast, hfilter⟩ := exists_ending parts
  rw [hfilter] at h
  have hfront : fs.ResolvesIn n base front location node := @with_idles _ _ _ _ _ [] front hlast h
  by_cases hnil : ending = []
  · rw [hnil, List.append_nil, hfront.follow_eq]
    split
    · exact .inl rfl
    · exact .inr (.inl rfl)
  · have hidle : ∃ last ∈ (front ++ ending).getLast?, IsIdle last := by
      rw [List.getLast?_append_of_ne_nil _ hnil, List.getLast?_eq_some_getLast hnil]
      exact ⟨_, rfl, hending _ (List.getLast_mem hnil)⟩
    cases hnode : node.isDirectory with
    | true =>
      obtain ⟨es, rfl⟩ := isDirectory_iff.1 hnode
      rw [hfront.follow_append (fun hnone => absurd hnone hnil)]
      split
      · rcases advance_idles fs hending location with hplace | hdenied
        · rw [follow_of_advance hplace, hfront.node?_eq]
          exact .inl rfl
        · rw [follow_of_fault hdenied]
          exact .inr (.inr ⟨.inr rfl, hidle⟩)
      · exact .inr (.inl rfl)
    | false =>
      rw [hfront.follow_through hbase hnode hnil]
      split
      · exact .inr (.inr ⟨.inl rfl, hidle⟩)
      · exact .inr (.inl rfl)

end ResolvesIn

/-! ### Texts as routes and as path names -/

/-- The parts of the name that a text denotes are those of its route without the idle ones. -/
theorem filter_parts_ofText (text : String) :
    (Route.ofText text).parts.filter (¬ IsIdle ·) = (PathName.ofString text).parts := by
  rw [PathName.parts_ofString]
  show (Route.partsOf (Text.cutAt '/' text.toList)).filter _
    = ((Text.cutAt '/' text.toList).map String.ofList).filter _
  rw [Route.partsOf, List.map_append, List.filter_append]
  have hending : ((if (Text.cutAt '/' text.toList).getLast?.any (·.isEmpty) then [[]] else []).map
      String.ofList).filter (¬ IsIdle ·) = [] := by
    split <;> rfl
  rw [hending, List.append_nil, List.filter_map, List.filter_map, List.filter_filter]
  refine congrArg _ (List.filter_congr fun piece _ => ?_)
  rw [Function.comp_apply, Function.comp_apply, Bool.eq_iff_iff, Bool.and_eq_true, decide_eq_true_eq,
    decide_eq_true_eq, IsIdle, not_or, Bool.not_eq_true', List.isEmpty_eq_false_iff]
  exact and_iff_left_of_imp fun hnot hempty => hnot.1 (String.ofList_eq_empty_iff.2 hempty)

/-- A text with an idle part at the end of its route asks for a directory. -/
theorem asksForDirectory_of_getLast? {text : String}
    (h : ∃ last ∈ (Route.ofText text).parts.getLast?, IsIdle last) : Route.AsksForDirectory text := by
  obtain ⟨part, hpart, hidle⟩ := h
  obtain ⟨pieces, last, hpieces⟩ := List.eq_nil_or_concat (Text.cutAt '/' text.toList) |>.resolve_left
    (Text.cutAt_ne_nil _ _)
  rw [List.concat_eq_append] at hpieces
  refine ⟨last, ?_, ?_⟩
  · rw [hpieces, List.getLast?_concat]
    rfl
  · by_cases hempty : last = []
    · exact .inl hempty
    · right
      have hparts : (Route.ofText text).parts
          = ((pieces.filter (!·.isEmpty)).map String.ofList) ++ [String.ofList last] := by
        show Route.partsOf (Text.cutAt '/' text.toList) = _
        rw [hpieces, Route.partsOf, List.getLast?_concat, List.filter_append]
        simp [hempty]
      rw [hparts, List.getLast?_concat] at hpart
      obtain rfl : String.ofList last = part := Option.some.inj hpart
      rcases hidle with hidle | hidle
      · exact absurd (String.ofList_eq_empty_iff.1 hidle) hempty
      · exact String.ofList_inj.1 hidle

theorem isAbsolute_ofText (text : String) :
    (Route.ofText text).isAbsolute = true ↔ (PathName.ofString text).root ≠ .relative := by
  rw [ne_eq, show (PathName.ofString text).root = PathName.startOf text from rfl,
    PathName.startOf_eq_relative_iff, not_not]
  exact beq_iff_eq

/-- What the route of a text leads to, the name that it denotes leads to as well. -/
theorem follow_named {links links' : Nat} {base location : List String} {node : Node} {text : String}
    (h : fs.follow true links base (Route.ofText text).parts = .ok ⟨location, some node⟩)
    (hlinks : links ≤ links') :
    fs.follow true links' base (PathName.ofString text).parts = .ok ⟨location, some node⟩ := by
  have hall := h
  rw [← List.append_nil (Route.ofText text).parts] at hall
  obtain ⟨n, hcount, hn⟩ := (resolves_of_follow h).exists_resolvesIn hall (fun _ => rfl)
  have hnamed : fs.ResolvesIn n base ((Route.ofText text).parts.filter (¬ IsIdle ·)) location node :=
    @ResolvesIn.without_idles fs n base location node [] (Route.ofText text).parts hn
  rw [filter_parts_ofText] at hnamed
  rw [hnamed.follow_eq, if_pos (Nat.le_trans hcount hlinks)]

/-- What the name that a text denotes leads to, its route leads to as well, unless there are too many
links on the way or the text asks for a directory that is none or in which nothing may be looked up. -/
theorem follow_route {links' : Nat} {base location : List String} {node : Node} {text : String}
    (hbase : fs.IsDirectoryAt base)
    (h : fs.follow true links' base (PathName.ofString text).parts = .ok ⟨location, some node⟩)
    (links : Nat) :
    fs.follow true links base (Route.ofText text).parts = .ok ⟨location, some node⟩ ∨
      fs.follow true links base (Route.ofText text).parts = .error .linkLoop ∨
      (fs.follow true links base (Route.ofText text).parts = .error .notDirectory ∨
        fs.follow true links base (Route.ofText text).parts = .error .denied) ∧
        Route.AsksForDirectory text := by
  rw [← filter_parts_ofText] at h
  have hall := h
  rw [← List.append_nil (List.filter _ _)] at hall
  obtain ⟨n, -, hn⟩ := (resolves_of_follow h).exists_resolvesIn hall (fun _ => rfl)
  exact (hn.follow_with_idles hbase links).imp_right fun hfault =>
    hfault.imp_right fun hend => ⟨hend.1, asksForDirectory_of_getLast? hend.2⟩

/-! ### A link and the path that its text stands for -/

/-- No part of a path that leads somewhere holds a NUL. -/
theorem Resolves.nul_not_mem {final : Bool} {base parts location : List String} {node : Node}
    (h : fs.Resolves final base parts location node) : ∀ part ∈ parts, '\x00' ∉ part.toList := by
  have hentry : ∀ {base : List String} {part : String} {next : Node},
      fs.node? (base ++ [part]) = some next → '\x00' ∉ part.toList := by
    intro base part next hnext
    have hname := isEntryName_of_node? hnext part (List.mem_singleton_self _)
    simp only [Node.isEntryName, Bool.and_eq_true, Bool.not_eq_true', List.contains_eq_mem,
      decide_eq_false_iff_not] at hname
    exact hname.1.2
  induction h with
  | here _ => exact List.forall_mem_nil _
  | idle hidle _ ih => exact List.forall_mem_cons.2 ⟨by rcases hidle with rfl | rfl <;> decide, ih⟩
  | up hparent _ ih =>
    subst hparent
    exact List.forall_mem_cons.2 ⟨by decide, ih⟩
  | step _ hnext _ _ _ ih => exact List.forall_mem_cons.2 ⟨hentry hnext, ih⟩
  | link _ hnext _ _ ih =>
    refine List.forall_mem_cons.2 ⟨hentry hnext, fun part hpart => ?_⟩
    exact ih part (List.mem_append_right _ hpart)
  | named _ _ hnext => exact List.forall_mem_cons.2 ⟨hentry hnext, List.forall_mem_nil _⟩

theorem locateEntry_of_linkAt? {p : PathName} {text : String} (h : fs.linkAt? p = some text) :
    ∃ location, fs.locateEntry (.ofPath p) = .ok (location, .link text) := by
  rw [linkAt?] at h
  split at h
  · rename_i location target hlocate
    cases h
    exact ⟨location, hlocate⟩
  · cases h

/-- **A path that names a link** leads to the directory that the link is in, which may be searched, and
its last part is the name of the link there. -/
theorem exists_linkWay {p : PathName} {text : String} (h : fs.linkAt? p = some text) :
    ∃ parts name above es n, p.parts = parts ++ [name] ∧ n ≤ maxLinks ∧
      fs.ResolvesIn n (fs.start p) parts above (.directory es) ∧ fs.maySearch above = true ∧
      IsStep name ∧ fs.node? (above ++ [name]) = some (.link text) := by
  obtain ⟨location, hentry⟩ := locateEntry_of_linkAt? h
  obtain ⟨-, hfollow⟩ := (locateEntry_eq_ok_iff ..).1 hentry
  have hnames := resolves_of_follow hfollow
  rcases List.eq_nil_or_concat p.parts with hnil | ⟨parts, name, hparts⟩
  · -- the current directory is no link
    rw [hnil] at hnames
    obtain ⟨es, hes⟩ := fs.isDirectoryAt_start p
    cases hnames with
    | here hnode =>
      rw [hes] at hnode
      cases hnode
  · rw [List.concat_eq_append] at hparts
    rw [hparts] at hnames hfollow
    have hpart : PathName.IsPart name := PathName.isPart_of_mem_parts p (by rw [hparts]; simp)
    have hidle : ¬ IsIdle name := not_isIdle_of_isPart hpart
    obtain ⟨above, es, hway, hlast⟩ :=
      hnames.split (fs.isDirectoryAt_start p) (List.cons_ne_nil name [])
    obtain ⟨n, hcount, hn⟩ := hway.exists_resolvesIn hfollow
      (fun hnone => absurd hnone (List.cons_ne_nil _ _))
    rw [hn.follow_append (fun hnone => absurd hnone (List.cons_ne_nil _ _)), if_pos hcount] at hfollow
    have hsearch := maySearch_of_follow hfollow fun hempty => hidle (.inl hempty)
    refine ⟨parts, name, above, es, n, hparts, hcount, hn, hsearch, ?_⟩
    cases hlast with
    | idle hname => exact absurd hname hidle
    | up _ hrest =>
      cases hrest with
      | here hnode =>
        obtain ⟨es', hes'⟩ := IsDirectoryAt.dropLast ⟨es, hway.node?_eq⟩
        rw [hes'] at hnode
        cases hnode
    | step _ hnext hlink _ hrest =>
      cases hrest with
      | here hnode =>
        rw [hnext] at hnode
        cases hnode
        exact absurd rfl (hlink _)
    | link _ _ hfinal => cases hfinal rfl
    | named _ hs hnext => exact ⟨hs, hnext⟩

/-- The path that the text of a link stands for, in the directory of the link, goes on from there with at
least as many links left as the link itself. -/
theorem follow_reached {p : PathName} {parts above : List String} {name : String}
    {es : List (String × Node)} {n : Nat} (hparts : p.parts = parts ++ [name]) (hcount : n ≤ maxLinks)
    (hway : fs.ResolvesIn n (fs.start p) parts above (.directory es)) (text : String) :
    ∃ links, maxLinks - n ≤ links ∧
      fs.follow true maxLinks (fs.start (p.parent.below text)) (p.parent.below text).parts
        = fs.follow true links (if (Route.ofText text).isAbsolute then [] else above)
          (PathName.ofString text).parts := by
  by_cases habsolute : (Route.ofText text).isAbsolute = true
  · have hroot := (isAbsolute_ofText text).1 habsolute
    refine ⟨maxLinks, Nat.sub_le _ _, ?_⟩
    rw [if_pos habsolute, PathName.below_of_absolute _ hroot, start]
    cases hcase : (PathName.ofString text).root with
    | relative => exact absurd hcase hroot
    | single => rfl
    | double => rfl
  · have hroot : (PathName.ofString text).root = .relative := by
      by_contra hne
      exact habsolute ((isAbsolute_ofText text).2 hne)
    obtain ⟨hbelowRoot, hbelowParts⟩ := PathName.below_of_relative p.parent hroot
    have hstart : fs.start (p.parent.below text) = fs.start p := by
      rw [start, start, hbelowRoot]
      rfl
    have hparent : p.parent.parts = parts := by
      show p.parts.dropLast = parts
      rw [hparts, List.dropLast_concat]
    refine ⟨maxLinks - n, Nat.le_refl _, ?_⟩
    rw [if_neg habsolute, hstart, hbelowParts, hparent, hway.follow_append (fun _ => rfl),
      if_pos hcount]

/-- The path that the text of a link stands for can be looked up if its parts lead somewhere, if the
link can be, and if it is not too long. -/
theorem Admits.reached {p : PathName} (h : fs.Admits p) {text : String}
    (hsize : (p.parent.below text).render.utf8ByteSize < Route.sizeLimit)
    (hnul : ∀ part ∈ (p.parent.below text).parts, '\x00' ∉ part.toList) :
    fs.Admits (p.parent.below text) := by
  refine ⟨?_, hsize, fun hrelative => ?_⟩
  · rw [PathName.hasNul, List.any_eq_false]
    intro part hpart
    simpa using hnul part hpart
  · by_cases hroot : (PathName.ofString text).root = .relative
    · obtain ⟨hbelow, -⟩ := PathName.below_of_relative p.parent hroot
      exact h.cwd (hbelow.symm.trans hrelative)
    · rw [PathName.below_of_absolute _ hroot] at hrelative
      exact absurd hrelative hroot

/-- **What a link leads to**, the path that its text stands for leads to as well. -/
theorem locate_reached {p : PathName} {text : String} (hlink : fs.linkAt? p = some text)
    (hsize : (p.parent.below text).render.utf8ByteSize < Route.sizeLimit) {location : List String}
    {node : Node} (h : fs.locate (.ofPath p) = .ok (location, node)) :
    fs.locate (.ofPath (p.parent.below text)) = .ok (location, node) := by
  obtain ⟨parts, name, above, es, n, hparts, hcount, hway, hsearch, hs, hnode⟩ := exists_linkWay hlink
  obtain ⟨links, hlinks, hreached⟩ := follow_reached hparts hcount hway text
  obtain ⟨hadmits, hfollow⟩ := (locate_eq_ok_iff ..).1 h
  obtain ⟨hnone, hmore⟩ := follow_of_link (advance_at_link hs hsearch hnode []) fun _ => rfl
  rw [hparts, hway.follow_append (fun _ => rfl), if_pos hcount] at hfollow
  rcases hleft : maxLinks - n with _ | left
  · rw [hleft, hnone] at hfollow
    cases hfollow
  · rw [hleft, hmore, List.append_nil] at hfollow
    rw [hleft] at hlinks
    have hthere := follow_named hfollow (Nat.le_of_succ_le hlinks)
    rw [← hreached] at hthere
    exact (locate_eq_ok_iff ..).2
      ⟨hadmits.reached hsize (resolves_of_follow hthere).nul_not_mem, hthere⟩

/-- **What the text of a link stands for**, the link leads to as well, unless too many links are on its
way or its text asks for a directory that is none or in which nothing may be looked up. -/
theorem locate_link {p : PathName} {text : String} (hlink : fs.linkAt? p = some text)
    {location : List String} {node : Node}
    (h : fs.locate (.ofPath (p.parent.below text)) = .ok (location, node)) :
    fs.locate (.ofPath p) = .ok (location, node) ∨ fs.locate (.ofPath p) = .error .linkLoop ∨
      (fs.locate (.ofPath p) = .error .notDirectory ∨ fs.locate (.ofPath p) = .error .denied) ∧
        Route.AsksForDirectory text := by
  obtain ⟨parts, name, above, es, n, hparts, hcount, hway, hsearch, hs, hnode⟩ := exists_linkWay hlink
  obtain ⟨links, -, hreached⟩ := follow_reached hparts hcount hway text
  obtain ⟨-, hthere⟩ := (locate_eq_ok_iff ..).1 h
  rw [hreached] at hthere
  obtain ⟨entry, hentry⟩ := locateEntry_of_linkAt? hlink
  obtain ⟨hadmits, -⟩ := (locateEntry_eq_ok_iff ..).1 hentry
  obtain ⟨hnone, hmore⟩ := follow_of_link (advance_at_link hs hsearch hnode []) fun _ => rfl
  rw [locate, hadmits.place_eq, hparts, hway.follow_append (fun _ => rfl), if_pos hcount]
  rcases maxLinks - n with _ | left
  · rw [hnone]
    exact .inr (.inl rfl)
  · rw [hmore, List.append_nil]
    rcases follow_route (isDirectoryAt_target hnode) hthere left with
      hok | hloop | ⟨hfault | hfault, hasks⟩
    · rw [hok]
      exact .inl rfl
    · rw [hloop]
      exact .inr (.inl rfl)
    · rw [hfault]
      exact .inr (.inr ⟨.inl rfl, hasks⟩)
    · rw [hfault]
      exact .inr (.inr ⟨.inr rfl, hasks⟩)

end FileSystem

end MigrationBench
