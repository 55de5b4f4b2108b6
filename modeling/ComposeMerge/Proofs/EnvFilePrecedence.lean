import ComposeMerge.Proofs.Settled

/-!
# Which lines of environment files count

The environment of a service is what it has already, and then lines of its files. A line is left
out when an entry, or a line read before it, claims it.

* a line with a key is claimed by the entries with this key (`claims_iff_of_keyOf?`), a line that
  is just a name by the entries that begin with it (`claims_iff_of_no_key`);
* `unclaimed` is the lines that are left, and `resolveEnvFiles_eq_insert` adds these;
* `mem_unclaimed_iff` says which lines are left, and `filter_unclaimed` which of those that have a
  property on which it depends who claims them;
* `environment_of_keys` and `environment_of_variables` say this of the environment of a service;
* `resolveEnvFiles_resolved`: when the files are read again, no line is left.
-/

namespace ComposeMerge

open Entries (get?)

namespace EnvFile

/-! ### Keys -/

/-- The text before the first `=` of an entry that has one. -/
def keyOf? (entry : String) : Option String :=
  (Text.splitFirst '=' entry.toList).map fun (key, _) => String.ofList key

/-- The variable that an entry is about: its key, or all of it. -/
def variableOf (entry : String) : String := (keyOf? entry).getD entry

/-- Whether an entry begins with the key part of a line. -/
def claims (entry line : String) : Bool := Text.startsWith (keyPart line.toList) entry.toList

variable {entry line key : String}

theorem claims_iff : claims entry line = true ↔ keyPart line.toList <+: entry.toList :=
  Text.startsWith_iff

theorem keyOf?_eq_some_iff :
    keyOf? entry = some key ↔ '=' ∉ key.toList ∧ key.toList ++ ['='] <+: entry.toList := by
  rw [keyOf?, Option.map_eq_some_iff]
  constructor
  · rintro ⟨⟨before, after⟩, hsplit, rfl⟩
    obtain ⟨hfree, heq⟩ := Text.splitFirst_eq_some_iff.1 hsplit
    rw [String.toList_ofList]
    exact ⟨hfree, after, by simp [heq]⟩
  · rintro ⟨hfree, after, heq⟩
    refine ⟨(key.toList, after), Text.splitFirst_eq_some_iff.2 ⟨hfree, ?_⟩, String.ofList_toList⟩
    simpa using heq.symm

theorem keyOf?_eq_none_iff : keyOf? entry = none ↔ '=' ∉ entry.toList := by
  rw [keyOf?, Option.map_eq_none_iff, Text.splitFirst_eq_none_iff]

theorem keyPart_of_key (h : keyOf? line = some key) : keyPart line.toList = key.toList ++ ['='] := by
  obtain ⟨⟨before, after⟩, hsplit, rfl⟩ := Option.map_eq_some_iff.1 h
  rw [keyPart, hsplit, String.toList_ofList]

theorem keyPart_of_no_key (h : keyOf? line = none) : keyPart line.toList = line.toList := by
  rw [keyPart, Option.map_eq_none_iff.1 h]

theorem variableOf_eq_iff {name : String} :
    variableOf entry = name ↔ keyOf? entry = some name ∨ keyOf? entry = none ∧ entry = name := by
  rw [variableOf]
  cases keyOf? entry <;> simp

theorem variableOf_isPrefix (entry : String) : (variableOf entry).toList <+: entry.toList := by
  rcases variableOf_eq_iff.1 (rfl : variableOf entry = _) with h | ⟨-, h⟩
  · exact (List.prefix_append _ _).trans (keyOf?_eq_some_iff.1 h).2
  · rw [← h]

/-- A line with a key is claimed by the entries with this key. -/
theorem claims_iff_of_keyOf? (h : keyOf? line = some key) :
    claims entry line = true ↔ keyOf? entry = some key := by
  rw [claims_iff, keyPart_of_key h, keyOf?_eq_some_iff]
  exact ⟨fun hprefix => ⟨(keyOf?_eq_some_iff.1 h).1, hprefix⟩, And.right⟩

/-- A line without a key is claimed by the entries that begin with it. -/
theorem claims_iff_of_no_key (h : keyOf? line = none) :
    claims entry line = true ↔ line.toList <+: entry.toList := by
  rw [claims_iff, keyPart_of_no_key h]

/-- Who claims a line, claims what the line claims. -/
theorem claims_trans {other : String} (h1 : claims entry line = true)
    (h2 : claims line other = true) : claims entry other = true := by
  cases hother : keyOf? other with
  | some key =>
    rw [claims_iff_of_keyOf? hother] at h2 ⊢
    exact (claims_iff_of_keyOf? h2).1 h1
  | none =>
    rw [claims_iff_of_no_key hother] at h2 ⊢
    cases hline : keyOf? line with
    | none => exact h2.trans ((claims_iff_of_no_key hline).1 h1)
    | some key =>
      -- The other line has no `=`, so that it ends within the key.
      have hkey : key.toList ++ ['='] <+: entry.toList := by
        rwa [claims_iff, keyPart_of_key hline] at h1
      rcases List.prefix_or_prefix_of_prefix h2 (keyOf?_eq_some_iff.1 hline).2 with h | h
      · exact h.trans hkey
      · exact absurd (h.subset (by simp)) (keyOf?_eq_none_iff.1 hother)

/-! ### Lines that are left -/

/-- The lines of a file that hold an entry. -/
def fileLines (content : List Char) : List String := (entryLines content).map String.ofList

/-- The lines that neither an entry nor a line before them claims. -/
def unclaimed (entries : List String) : List String → List String
  | [] => []
  | line :: lines =>
    if entries.any (claims · line) then unclaimed (entries ++ [line]) lines
    else line :: unclaimed (entries ++ [line]) lines

variable {entries lines : List String}

theorem mem_fileLines_iff {content : List Char} :
    line ∈ fileLines content ↔
      (∃ raw ∈ Text.lines content, String.ofList (Text.trim raw) = line) ∧
        line ≠ "" ∧ line.toList.head? ≠ some '#' := by
  unfold fileLines entryLines
  simp only [List.mem_map, List.mem_filter]
  constructor
  · rintro ⟨_, ⟨⟨raw, hraw, rfl⟩, hentry⟩, rfl⟩
    exact ⟨⟨raw, hraw, rfl⟩, by simpa [Environment.isComment] using hentry⟩
  · rintro ⟨⟨raw, hraw, rfl⟩, hentry⟩
    exact ⟨_, ⟨⟨raw, hraw, rfl⟩, by simpa [Environment.isComment] using hentry⟩, rfl⟩

theorem unclaimed_sublist (entries lines : List String) :
    List.Sublist (unclaimed entries lines) lines := by
  induction lines generalizing entries with
  | nil => exact List.Sublist.refl []
  | cons line lines ih =>
    rw [unclaimed]
    split
    · exact (ih _).cons line
    · exact (ih _).cons_cons line

theorem mem_unclaimed_cons {first : String} :
    line ∈ unclaimed entries (first :: lines) ↔
      line = first ∧ (∀ entry ∈ entries, ¬claims entry line = true) ∨
        line ∈ unclaimed (entries ++ [first]) lines := by
  rw [unclaimed]
  split
  · next h =>
    obtain ⟨entry, hentry, hclaims⟩ := List.any_eq_true.1 h
    refine ⟨.inr, ?_⟩
    rintro (⟨rfl, hnone⟩ | hrest)
    · exact absurd hclaims (hnone entry hentry)
    · exact hrest
  · next h =>
    rw [List.mem_cons]
    refine or_congr_left ⟨?_, And.left⟩
    rintro rfl
    exact ⟨rfl, fun entry hentry hclaims => h (List.any_eq_true.2 ⟨entry, hentry, hclaims⟩)⟩

theorem claims_self (line : String) : claims line line = true :=
  claims_iff.2 (keyPart_isPrefix line.toList)

/-- A line is left if nothing before its first place claims it. -/
theorem mem_unclaimed_iff :
    line ∈ unclaimed entries lines ↔ line ∈ lines ∧
      ∀ entry ∈ entries ++ lines.takeWhile (· ≠ line), ¬claims entry line = true := by
  induction lines generalizing entries with
  | nil => simp [unclaimed]
  | cons first lines ih =>
    rw [mem_unclaimed_cons, ih]
    by_cases hfirst : line = first
    · subst hfirst
      constructor
      · rintro (⟨-, hnone⟩ | ⟨-, hnone⟩)
        · exact ⟨List.mem_cons_self, by simpa using hnone⟩
        · -- At its later places the line is claimed by itself.
          exact absurd (claims_self line) (hnone line (by simp))
      · rintro ⟨-, hnone⟩
        exact .inl ⟨rfl, by simpa using hnone⟩
    · simp [hfirst, Ne.symm hfirst]

/-- Of the lines with a property that decides who claims them, only the first one is left, and none
if an entry has the property. -/
theorem filter_unclaimed {p : String → Bool}
    (h : ∀ line ∈ lines, p line = true → ∀ entry ∈ entries ++ lines,
      (claims entry line = true ↔ p entry = true)) :
    (unclaimed entries lines).filter p =
      if entries.any p then [] else (lines.find? p).toList := by
  induction lines generalizing entries with
  | nil => simp [unclaimed]
  | cons line lines ih =>
    have hrest := @ih (entries ++ [line]) fun other hother hp => by
      simpa using h other (by simp [hother]) hp
    rw [List.any_append, List.any_cons, List.any_nil, Bool.or_false] at hrest
    rw [unclaimed]
    cases hp : p line with
    | false =>
      rw [hp, Bool.or_false] at hrest
      split <;> simp [hp, hrest]
    | true =>
      have hclaims : entries.any (claims · line) = entries.any p := by
        refine Bool.eq_iff_iff.2 ?_
        rw [List.any_eq_true, List.any_eq_true]
        refine exists_congr fun entry => and_congr_right fun hentry => ?_
        exact h line (by simp) hp entry (by simp [hentry])
      rw [hp, Bool.or_true, if_pos rfl] at hrest
      rw [hclaims]
      split
      · exact hrest
      · simp [hp, hrest]

theorem filter_keyOf?_unclaimed (entries lines : List String) (key : String) :
    (unclaimed entries lines).filter (keyOf? · = some key) =
      if entries.any (keyOf? · = some key) then []
      else (lines.find? (keyOf? · = some key)).toList := by
  refine filter_unclaimed fun line _ hline entry _ => ?_
  rw [decide_eq_true_eq] at hline ⊢
  exact claims_iff_of_keyOf? hline

/-- Of the lines about a name that is an entry, those that set it can be left. -/
theorem unclaimed_variableOf_ne_iff {name : String} (h : name ∈ entries) :
    (∀ line ∈ unclaimed entries lines, variableOf line ≠ name) ↔
      (∃ entry ∈ entries, keyOf? entry = some name) ∨ ∀ line ∈ lines, keyOf? line ≠ some name := by
  have hnot : name ∉ unclaimed entries lines := fun hname =>
    (mem_unclaimed_iff.1 hname).2 name (List.mem_append_left _ h) (claims_self name)
  have hkeyed : (∀ line ∈ unclaimed entries lines, variableOf line ≠ name) ↔
      (unclaimed entries lines).filter (keyOf? · = some name) = [] := by
    rw [List.filter_eq_nil_iff]
    refine forall₂_congr fun line hline => not_congr ?_
    rw [decide_eq_true_eq, variableOf_eq_iff]
    refine or_iff_left ?_
    rintro ⟨-, rfl⟩
    exact hnot hline
  rw [hkeyed, filter_keyOf?_unclaimed]
  split
  · next hany => exact iff_of_true rfl (.inl (by simpa using hany))
  · next hany =>
    rw [or_iff_right (by simpa using hany), Option.toList_eq_nil_iff, List.find?_eq_none]
    simp only [decide_eq_true_eq]

/-- A name is apart when it stands alone nowhere if a line of a file sets it, and no longer name
begins with it if it stands alone in a file. -/
structure Apart (name : String) (own lines : List String) : Prop where
  keyed : ∀ line ∈ lines, keyOf? line = some name → name ∉ own ++ lines
  bare : name ∈ lines → ∀ entry ∈ own ++ lines, name.toList <+: entry.toList →
    variableOf entry = name

/-- A line about such a variable is claimed by the entries about the variable. -/
theorem claims_iff_of_apart {name : String} (h : Apart name entries lines) (hline : line ∈ lines)
    (hname : variableOf line = name) (hentry : entry ∈ entries ++ lines) :
    claims entry line = true ↔ variableOf entry = name := by
  rcases variableOf_eq_iff.1 hname with hkey | ⟨hnone, rfl⟩
  · rw [claims_iff_of_keyOf? hkey, variableOf_eq_iff]
    refine (or_iff_left ?_).symm
    rintro ⟨-, rfl⟩
    exact h.keyed line hline hkey hentry
  · rw [claims_iff_of_no_key hnone]
    refine ⟨h.bare hline entry hentry, fun hvariable => ?_⟩
    rw [← hvariable]
    exact variableOf_isPrefix entry

/-! ### Lines that are added -/

theorem isClaimed_eq_any (entries : List String) (line : List Char) :
    isClaimed entries line = entries.any (claims · (String.ofList line)) := by
  simp [isClaimed, claims]

/-- Lines are added to entries as if all lines that have been seen were among these. -/
theorem foldl_addLine_eq {seen : List String}
    (hseen : ∀ line, entries.any (claims · line) = seen.any (claims · line))
    (lines : List (List Char)) :
    lines.foldl addLine entries = entries ++ unclaimed seen (lines.map String.ofList) := by
  induction lines generalizing entries seen with
  | nil => simp [unclaimed]
  | cons line lines ih =>
    rw [List.foldl_cons, addLine, isClaimed_eq_any, List.map_cons, unclaimed, ← hseen]
    split
    · next hclaimed =>
      refine ih fun other => ?_
      -- The line that is left out claims nothing new.
      rw [List.any_append, List.any_cons, List.any_nil, Bool.or_false, ← hseen]
      cases hother : claims (String.ofList line) other with
      | false => rw [Bool.or_false]
      | true =>
        obtain ⟨entry, hentry, hclaims⟩ := List.any_eq_true.1 hclaimed
        rw [Bool.or_true, List.any_eq_true]
        exact ⟨entry, hentry, claims_trans hclaims hother⟩
    · have hboth : ∀ other, (entries ++ [String.ofList line]).any (claims · other) =
          (seen ++ [String.ofList line]).any (claims · other) := fun other => by
        rw [List.any_append, List.any_append, hseen]
      rw [ih hboth, List.append_assoc, List.singleton_append]

variable {lookup : ResourceLookup} {manifest : Path} {refs : List String}

theorem addFiles_eq_ok_iff {result : List String} :
    addFiles lookup manifest entries refs = .ok result ↔
      ∃ contents, refs.mapM (readFile lookup manifest) = .ok contents ∧
        result = (contents.flatMap entryLines).foldl addLine entries := by
  induction refs generalizing entries with
  | nil => simp [addFiles, pure, Except.pure, eq_comm]
  | cons r refs ih =>
    rw [addFiles, Outcome.bind_eq_ok_iff]
    simp only [ih, Outcome.mapM_cons_eq_ok_iff]
    constructor
    · rintro ⟨content, hcontent, contents, hcontents, rfl⟩
      exact ⟨_, ⟨content, contents, hcontent, hcontents, rfl⟩, by simp [addLines]⟩
    · rintro ⟨_, ⟨content, contents, hcontent, hcontents, rfl⟩, rfl⟩
      exact ⟨content, hcontent, contents, hcontents, by simp [addLines]⟩

/-- The lines of several files, those of the last file first. -/
def linesFromLast (contents : List (List Char)) : List String :=
  contents.reverse.flatMap fileLines

theorem find?_linesFromLast (p : String → Bool) (contents : List (List Char)) :
    (linesFromLast contents).find? p =
      contents.reverse.findSome? fun content => (fileLines content).find? p :=
  List.find?_flatMap

/-- To the entries of a service are added the lines of its files that are left. -/
theorem resolveEnvFiles_eq_insert {lookup : Option ResourceLookup} {service result : RawService}
    (h : resolveEnvFiles lookup manifest service = .ok result)
    (hrefs : references service = .ok refs) (hne : refs ≠ []) :
    ∃ l ∈ lookup, ∃ own contents, ownEntries service = .ok own ∧
      refs.mapM (readFile l manifest) = .ok contents ∧
      result = service.insert environmentField
        (.strings (own ++ unclaimed own (linesFromLast contents))) := by
  obtain ⟨refs', hrefs', ⟨rfl, -⟩ | ⟨-, l, hl, own, entries, hown, hadd, rfl⟩⟩ :=
    resolveEnvFiles_eq_ok_iff.1 h
  · cases hrefs.symm.trans hrefs'
    exact absurd rfl hne
  · cases hrefs.symm.trans hrefs'
    obtain ⟨contents, hcontents, rfl⟩ := addFiles_eq_ok_iff.1 hadd
    refine ⟨l, hl, own, contents.reverse, hown, ?_, ?_⟩
    · rw [Outcome.mapM_eq_ok_iff_forall₂] at hcontents ⊢
      rwa [← List.forall₂_reverse_iff, List.reverse_reverse]
    · rw [foldl_addLine_eq fun _ => rfl, List.map_flatMap, linesFromLast, List.reverse_reverse]
      rfl

end EnvFile

/-! ### The environment of a service -/

open EnvFile

variable {lookup : Option ResourceLookup} {manifest : Path} {service result : RawService}
  {refs : List String}

/-- **Entries with a key.** The environment of a service with files is its own entries and then
lines of the files, and nothing else changes. If the service has an entry with a key, then no line
with this key is added. Otherwise one is, if there is any: the first one in the last file that has
one. -/
theorem environment_of_keys (h : resolveEnvFiles lookup manifest service = .ok result)
    (hrefs : references service = .ok refs) (hne : refs ≠ []) :
    ∃ l ∈ lookup, ∃ own contents added, ownEntries service = .ok own ∧
      refs.mapM (readFile l manifest) = .ok contents ∧
      get? environmentField result = some (.strings (own ++ added)) ∧
      (∀ field, field ≠ environmentField → get? field result = get? field service) ∧
      List.Sublist added (linesFromLast contents) ∧
      (∀ line ∈ added, line ≠ "" ∧ line.toList.head? ≠ some '#' ∧
        ∃ content ∈ contents, ∃ raw ∈ Text.lines content, String.ofList (Text.trim raw) = line) ∧
      ∀ key,
        ((∃ entry ∈ own, keyOf? entry = some key) → ∀ line ∈ added, keyOf? line ≠ some key) ∧
        ((∀ entry ∈ own, keyOf? entry ≠ some key) →
          added.filter (keyOf? · = some key) =
            (contents.reverse.findSome? fun content =>
              (fileLines content).find? (keyOf? · = some key)).toList) := by
  obtain ⟨l, hl, own, contents, hown, hcontents, rfl⟩ := resolveEnvFiles_eq_insert h hrefs hne
  have hsub := unclaimed_sublist own (linesFromLast contents)
  refine ⟨l, hl, own, contents, unclaimed own (linesFromLast contents), hown, hcontents,
    Entries.get?_insert_self .., fun field hfield => Entries.get?_insert_of_ne hfield .., hsub,
    fun line hline => ?_, fun key => ?_⟩
  · obtain ⟨content, hcontent, hline⟩ := List.mem_flatMap.1 (hsub.subset hline)
    obtain ⟨hraw, hempty, hcomment⟩ := mem_fileLines_iff.1 hline
    exact ⟨hempty, hcomment, content, List.mem_reverse.1 hcontent, hraw⟩
  · have hfilter := filter_keyOf?_unclaimed own (linesFromLast contents) key
    constructor
    · rintro ⟨entry, hentry, hkey⟩ line hline hline'
      rw [if_pos (List.any_eq_true.2 ⟨entry, hentry, by simpa using hkey⟩)] at hfilter
      exact List.filter_eq_nil_iff.1 hfilter line hline (by simpa using hline')
    · intro hnone
      rw [if_neg (by simpa using hnone), find?_linesFromLast] at hfilter
      exact hfilter

/-- A file where a key is set twice, a value has the character `=`, and two names stand alone. -/
def baseText : String := "A=1\nAB=2\nA=3\n# note\nX=y=z\nB\nDEBUG\n"

/-- A file with names that are in the other file, too. -/
def moreText : String := "  AB=5 \nA\n\nCC=7\nDEBUG\n"

/-- The two files in memory. -/
def twoFiles : ResourceLookup :=
  .fromMemory [("base.env", baseText.toUTF8.toList), ("more.env", moreText.toUTF8.toList)]

/-- A service that lists one of the files twice. -/
def listingService : RawService :=
  [("env_file", .strings ["base.env", "more.env", "base.env"]),
    ("environment", .strings ["B=0", "CC"])]

theorem references_listingService :
    references listingService = .ok ["base.env", "more.env", "base.env"] := by
  decide

theorem ownEntries_listingService : ownEntries listingService = .ok ["B=0", "CC"] := by
  decide

theorem readFile_twoFiles :
    ["base.env", "more.env", "base.env"].mapM (readFile twoFiles "one.yml") =
      .ok [baseText.toList, moreText.toList, baseText.toList] := by
  decide +kernel

theorem resolveEnvFiles_listingService :
    resolveEnvFiles (some twoFiles) "one.yml" listingService =
      .ok (listingService.insert environmentField
        (.strings ["B=0", "CC", "A=1", "AB=2", "X=y=z", "DEBUG", "CC=7"])) :=
  resolveEnvFiles_eq_ok_iff.2 ⟨_, references_listingService, .inr ⟨by decide, twoFiles, rfl, _, _,
    ownEntries_listingService, by decide +kernel, rfl⟩⟩

/-- The key `A` is not the key `AB`, and a file that is listed twice counts once. -/
theorem keys_of_listingService :
    ∃ result, resolveEnvFiles (some twoFiles) "one.yml" listingService = .ok result ∧
      references listingService = .ok ["base.env", "more.env", "base.env"] ∧
      ∃ added, get? environmentField result = some (.strings (["B=0", "CC"] ++ added)) ∧
        added.filter (keyOf? · = some "A") = ["A=1"] ∧
        ∀ line ∈ added, keyOf? line ≠ some "B" := by
  obtain ⟨_, ⟨⟩, own, contents, added, hown, hcontents, hresult, -, -, -, hkeys⟩ :=
    environment_of_keys resolveEnvFiles_listingService references_listingService (by decide)
  cases hown.symm.trans ownEntries_listingService
  cases hcontents.symm.trans readFile_twoFiles
  exact ⟨_, resolveEnvFiles_listingService, references_listingService, added, hresult,
    ((hkeys "A").2 (by decide)).trans (by decide),
    (hkeys "B").1 (by decide)⟩

/-- **Entries about a variable.** A name without a value among the entries of a service keeps out
all lines about it just when another entry there sets it, or no line does. A line that is just a
name is left out just when an entry before it begins with the name. Where a name is apart, only
the first entry about it counts. -/
theorem environment_of_variables (h : resolveEnvFiles lookup manifest service = .ok result)
    (hrefs : references service = .ok refs) (hne : refs ≠ []) :
    ∃ l ∈ lookup, ∃ own contents added, ownEntries service = .ok own ∧
      refs.mapM (readFile l manifest) = .ok contents ∧
      get? environmentField result = some (.strings (own ++ added)) ∧
      ∀ name, keyOf? name = none →
        (name ∈ own → ((∀ line ∈ added, variableOf line ≠ name) ↔
          (∃ entry ∈ own, keyOf? entry = some name) ∨
            ∀ line ∈ linesFromLast contents, keyOf? line ≠ some name)) ∧
        (name ∈ linesFromLast contents → (name ∉ added ↔
          ∃ entry ∈ own ++ (linesFromLast contents).takeWhile (· ≠ name),
            name.toList <+: entry.toList)) ∧
        (Apart name own (linesFromLast contents) →
          added.filter (variableOf · = name) =
            if own.any (variableOf · = name) then []
            else ((linesFromLast contents).find? (variableOf · = name)).toList) := by
  obtain ⟨l, hl, own, contents, hown, hcontents, rfl⟩ := resolveEnvFiles_eq_insert h hrefs hne
  refine ⟨l, hl, own, contents, unclaimed own (linesFromLast contents), hown, hcontents,
    Entries.get?_insert_self .., fun name hname =>
      ⟨fun hmem => ?_, fun hmem => ?_, fun hapart => ?_⟩⟩
  · exact unclaimed_variableOf_ne_iff hmem
  · rw [mem_unclaimed_iff, and_iff_right hmem]
    simp [claims_iff_of_no_key hname]
  · refine filter_unclaimed fun line hline hvariable entry hentry => ?_
    rw [decide_eq_true_eq] at hvariable ⊢
    exact claims_iff_of_apart hapart hline hvariable hentry

/-- `DEBUG` stands alone in both files and is added once. `CC` stands alone in the service and is
set by a line all the same. -/
theorem variables_of_listingService :
    ∃ result, resolveEnvFiles (some twoFiles) "one.yml" listingService = .ok result ∧
      references listingService = .ok ["base.env", "more.env", "base.env"] ∧
      ∃ added, get? environmentField result = some (.strings (["B=0", "CC"] ++ added)) ∧
        added.filter (variableOf · = "DEBUG") = ["DEBUG"] ∧
        ¬∀ line ∈ added, variableOf line ≠ "CC" := by
  obtain ⟨_, ⟨⟩, own, contents, added, hown, hcontents, hresult, hvariables⟩ :=
    environment_of_variables resolveEnvFiles_listingService references_listingService (by decide)
  cases hown.symm.trans ownEntries_listingService
  cases hcontents.symm.trans readFile_twoFiles
  obtain ⟨-, -, hapart⟩ := hvariables "DEBUG" (by decide)
  obtain ⟨halone, -⟩ := hvariables "CC" (by decide)
  refine ⟨_, resolveEnvFiles_listingService, references_listingService, added, hresult,
    (hapart ⟨by decide, by decide⟩).trans (by decide), ?_⟩
  rw [halone (by decide)]
  decide

/-- The line that sets `A` is added although the service has the name, and `DEBUG` is left out for
the sake of `DEBUG_LEVEL`. -/
theorem names_alone_mistaken :
    (resolveEnvFiles (some (.fromMemory [("app.env", "A=1\nDEBUG\n".toUTF8.toList)])) "one.yml"
      [("env_file", .string "app.env"), ("environment", .strings ["A", "DEBUG_LEVEL=1"])]
        >>= ownEntries) = .ok ["A", "DEBUG_LEVEL=1", "A=1"] := by
  decide +kernel

/-! ### Reading the files again -/

/-- What a service refers to does not depend on its environment. -/
theorem EnvFile.references_insert_environment (service : RawService) (v : Value) :
    references (service.insert environmentField v) = references service := by
  rw [references, references, Entries.get?_insert_of_ne (show filesField ≠ environmentField by decide)]

/-- The entries that have been written are the entries of the service. -/
theorem EnvFile.ownEntries_insert_environment (service : RawService) (entries : List String) :
    ownEntries (service.insert environmentField (.strings entries)) = .ok entries := by
  rw [ownEntries, Entries.get?_insert_self]
  exact Slot.mapM_strings (fun _ => rfl) entries

/-- **Files are read once.** A service whose files have been read stays as it is when they are read
again: every line of theirs is claimed by an entry that it has by then. -/
theorem resolveEnvFiles_resolved (h : resolveEnvFiles lookup manifest service = .ok result) :
    resolveEnvFiles lookup manifest result = .ok result := by
  obtain ⟨refs, hrefs, ⟨-, rfl⟩ | ⟨hne, l, hl, own, entries, -, hadd, rfl⟩⟩ :=
    resolveEnvFiles_eq_ok_iff.1 h
  · exact h
  · have hagain : addFiles l manifest entries refs.reverse = .ok entries :=
      addFiles_again (fun _ _ _ hcontent => hcontent) hadd
    refine resolveEnvFiles_eq_ok_iff.2 ⟨refs, ?_, .inr ⟨hne, l, hl, entries, entries,
      ownEntries_insert_environment service entries, hagain, ?_⟩⟩
    · rw [references_insert_environment, hrefs]
    · rw [Entries.insert_insert]

/-- Names that stand alone, keys that begin alike and a file that is listed twice: nothing is added
to what has been read. -/
theorem resolved_listingService :
    ∃ result, resolveEnvFiles (some twoFiles) "one.yml" listingService = .ok result ∧
      ownEntries result = .ok ["B=0", "CC", "A=1", "AB=2", "X=y=z", "DEBUG", "CC=7"] ∧
      resolveEnvFiles (some twoFiles) "one.yml" result = .ok result :=
  ⟨_, resolveEnvFiles_listingService, ownEntries_insert_environment _ _,
    resolveEnvFiles_resolved resolveEnvFiles_listingService⟩

end ComposeMerge
