import ComposeMerge.Merging
import ComposeMerge.Proofs.Entries

/-!
# Referenced variables

Of the variables of an environment, a merge sees those that the strings of the manifest refer to,
and no others: neither the words of modifiers nor keys nor the values of variables are looked
through for references.

* `Reference.referenced` and `Manifest.referenced` are the variables that a text and a manifest refer
  to;
* `Reference.substitute_congr` and `Reference.substitute_of_not_mem` say what becomes of a text;
* `interpolate_congr` and `interpolate_eq_self` carry this to values, and
  `Merging.substitute_congr` and `Merging.substitute_eq_self` to manifests;
* `only_referenced_variables_matter` is about a whole merge.
-/

namespace ComposeMerge

/-! ### Texts -/

namespace Reference

/-- The variable that a piece refers to. -/
def Segment.variable? : Segment → Option String
  | .literal _ => none
  | .dollar => none
  | .variable name _ => some name

/-- The variables that a text refers to. Nothing is looked up for a text with a malformed
reference. -/
def referenced (input : String) : List String :=
  match tokenize input with
  | .error _ => []
  | .ok segments => segments.filterMap Segment.variable?

/-- What stands in the word of a modifier is no reference, and neither is what follows `$$`. -/
example : referenced "$A $\x7bB:-$C\x7d $$D" = ["A", "B"] := by
  decide +kernel

variable {env env' : Environment} {policy : UndefinedPolicy}

theorem meaning_congr : {segment : Segment} →
    (∀ name ∈ segment.variable?, env name = env' name) →
      segment.meaning env policy = segment.meaning env' policy
  | .literal _, _ => rfl
  | .dollar, _ => rfl
  | .variable name none, h => by
    simp only [Segment.meaning, h name rfl]
  | .variable name (some (.default _ _)), h => by
    simp only [Segment.meaning, h name rfl]
  | .variable name (some (.required _ _)), h => by
    simp only [Segment.meaning, h name rfl]

theorem meanings_congr {segments : List Segment}
    (h : ∀ name ∈ segments.filterMap Segment.variable?, env name = env' name) :
    meanings env policy segments = meanings env' policy segments := by
  induction segments with
  | nil => rfl
  | cons segment segments ih =>
    have hsegment : ∀ name ∈ segment.variable?, env name = env' name := fun name hname =>
      h name (List.mem_filterMap.2 ⟨segment, by simp, hname⟩)
    have hrest := ih fun name hname => by
      obtain ⟨other, hother, hname⟩ := List.mem_filterMap.1 hname
      exact h name (List.mem_filterMap.2 ⟨other, by simp [hother], hname⟩)
    rw [meanings, meanings, meaning_congr hsegment, hrest]

/-- What becomes of a text depends on the variables that it refers to. -/
theorem substitute_congr {input : String} (h : ∀ name ∈ referenced input, env name = env' name) :
    substitute env policy input = substitute env' policy input := by
  unfold substitute
  unfold referenced at h
  split
  · rfl
  split
  · rfl
  · next segments hsegments =>
    rw [hsegments] at h
    exact meanings_congr h

/-- A text without a dollar sign stays as it is. -/
theorem substitute_of_not_mem {input : String} (h : '$' ∉ input.toList) (env : Environment)
    (policy : UndefinedPolicy) : substitute env policy input = .ok input :=
  if_pos h

end Reference

/-! ### Values -/

namespace Value

mutual

/-- The strings inside a value. Keys do not count. -/
def texts : Value → List String
  | .scalar (.text s) => [s]
  | .scalar _ => []
  | .sequence items => textsOfItems items
  | .mapping es => textsOfEntries es

/-- The strings inside the items of a sequence. -/
def textsOfItems : List Value → List String
  | [] => []
  | v :: vs => texts v ++ textsOfItems vs

/-- The strings inside the values of entries. -/
def textsOfEntries : List (String × Value) → List String
  | [] => []
  | (_, v) :: es => texts v ++ textsOfEntries es

end

theorem textsOfEntries_eq_flatMap (es : Entries Value) :
    textsOfEntries es = es.flatMap fun e => e.2.texts := by
  induction es with
  | nil => rfl
  | cons e es ih => rw [textsOfEntries, ih, List.flatMap_cons]

theorem mem_textsOfEntries {es : Entries Value} {e : String × Value} (he : e ∈ es) {s : String}
    (hs : s ∈ e.2.texts) : s ∈ textsOfEntries es := by
  rw [textsOfEntries_eq_flatMap]
  exact List.mem_flatMap.2 ⟨e, he, hs⟩

end Value

variable {env env' : Environment} {policy policy' : UndefinedPolicy}

/-- Whether two environments, each with a policy, make the same of some texts. -/
def SameTexts (env env' : Environment) (policy policy' : UndefinedPolicy) (l : List String) : Prop :=
  ∀ s ∈ l, Reference.substitute env policy s = Reference.substitute env' policy' s

/-- Whether an environment leaves some texts as they are. -/
def LeavesTexts (env : Environment) (policy : UndefinedPolicy) (l : List String) : Prop :=
  ∀ s ∈ l, Reference.substitute env policy s = .ok s

mutual

/-- What becomes of a value depends on what becomes of its strings. -/
theorem interpolate_congr (field : String) : (v : Value) →
    SameTexts env env' policy policy' v.texts →
      interpolate env policy field v = interpolate env' policy' field v
  | .scalar (.text s), h => by
    rw [interpolate, interpolate, interpolateText, interpolateText, h s (by simp [Value.texts])]
  | .scalar .null, _ => rfl
  | .scalar (.bool _), _ => rfl
  | .scalar (.int _), _ => rfl
  | .scalar (.float _), _ => rfl
  | .sequence items, h => by
    rw [interpolate, interpolate, interpolateItems_congr field items h]
  | .mapping es, h => by
    rw [interpolate, interpolate, interpolateEntries_congr field es h]

theorem interpolateItems_congr (field : String) : (vs : List Value) →
    SameTexts env env' policy policy' (Value.textsOfItems vs) →
      interpolateItems env policy field vs = interpolateItems env' policy' field vs
  | [], _ => rfl
  | v :: vs, h => by
    obtain ⟨hv, hvs⟩ := List.forall_mem_append.1 h
    rw [interpolateItems, interpolateItems, interpolate_congr field v hv,
      interpolateItems_congr field vs hvs]

theorem interpolateEntries_congr (field : String) : (es : List (String × Value)) →
    SameTexts env env' policy policy' (Value.textsOfEntries es) →
      interpolateEntries env policy field es = interpolateEntries env' policy' field es
  | [], _ => rfl
  | (k, v) :: es, h => by
    obtain ⟨hv, hes⟩ := List.forall_mem_append.1 h
    rw [interpolateEntries, interpolateEntries, interpolate_congr field v hv,
      interpolateEntries_congr field es hes]

end

mutual

/-- Where no string changes, a value stays as it is. -/
theorem interpolate_eq_self (field : String) : (v : Value) → LeavesTexts env policy v.texts →
    interpolate env policy field v = .ok v
  | .scalar (.text s), h => by
    rw [interpolate, interpolateText, h s (by simp [Value.texts])]
    rfl
  | .scalar .null, _ => rfl
  | .scalar (.bool _), _ => rfl
  | .scalar (.int _), _ => rfl
  | .scalar (.float _), _ => rfl
  | .sequence items, h => by
    rw [interpolate, interpolateItems_eq_self field items h]
    rfl
  | .mapping es, h => by
    rw [interpolate, interpolateEntries_eq_self field es h]
    rfl

theorem interpolateItems_eq_self (field : String) : (vs : List Value) →
    LeavesTexts env policy (Value.textsOfItems vs) →
      interpolateItems env policy field vs = .ok vs
  | [], _ => rfl
  | v :: vs, h => by
    obtain ⟨hv, hvs⟩ := List.forall_mem_append.1 h
    rw [interpolateItems, interpolate_eq_self field v hv, interpolateItems_eq_self field vs hvs]
    rfl

theorem interpolateEntries_eq_self (field : String) : (es : List (String × Value)) →
    LeavesTexts env policy (Value.textsOfEntries es) →
      interpolateEntries env policy field es = .ok es
  | [], _ => rfl
  | (k, v) :: es, h => by
    obtain ⟨hv, hes⟩ := List.forall_mem_append.1 h
    rw [interpolateEntries, interpolate_eq_self field v hv, interpolateEntries_eq_self field es hes]
    rfl

end

/-! ### Manifests -/

/-- The strings of the services of a manifest. -/
def textsOfServices (services : RawServices) : List String :=
  services.flatMap fun e => Value.textsOfEntries e.2

/-- The strings inside the values of a manifest. -/
def Manifest.texts (m : Manifest) : List String :=
  textsOfServices m.services ++ (Value.textsOfEntries m.volumes ++ Value.textsOfEntries m.networks)

/-- The variables that a manifest refers to. -/
def Manifest.referenced (m : Manifest) : List String := m.texts.flatMap Reference.referenced

theorem interpolateSection_congr {entries : Entries Value}
    (h : SameTexts env env' policy policy' (Value.textsOfEntries entries)) :
    interpolateSection env policy entries = interpolateSection env' policy' entries :=
  Entries.traverse_congr fun e he =>
    interpolate_congr e.1 e.2 fun s hs => h s (Value.mem_textsOfEntries he hs)

theorem interpolateSection_eq_self {entries : Entries Value}
    (h : LeavesTexts env policy (Value.textsOfEntries entries)) :
    interpolateSection env policy entries = .ok entries :=
  (Entries.traverse_congr fun e he =>
    interpolate_eq_self e.1 e.2 fun s hs => h s (Value.mem_textsOfEntries he hs)).trans
      (Entries.traverse_pure entries)

theorem interpolateServices_congr {services : RawServices}
    (h : SameTexts env env' policy policy' (textsOfServices services)) :
    interpolateServices env policy services = interpolateServices env' policy' services :=
  Entries.traverse_congr fun e he => Entries.traverse_congr fun f hf =>
    interpolate_congr _ f.2 fun s hs =>
      h s (List.mem_flatMap.2 ⟨e, he, Value.mem_textsOfEntries hf hs⟩)

theorem interpolateServices_eq_self {services : RawServices}
    (h : LeavesTexts env policy (textsOfServices services)) :
    interpolateServices env policy services = .ok services := by
  have hservice : ∀ e ∈ services, interpolateService env policy e.1 e.2 = .ok e.2 := fun e he =>
    (Entries.traverse_congr fun f hf => interpolate_eq_self _ f.2 fun s hs =>
      h s (List.mem_flatMap.2 ⟨e, he, Value.mem_textsOfEntries hf hs⟩)).trans
        (Entries.traverse_pure e.2)
  exact (Entries.traverse_congr hservice).trans (Entries.traverse_pure services)

theorem texts_fullExtends (v : Value) : (fullExtends v).texts = v.texts := by
  unfold fullExtends
  split <;> rfl

/-- Writing inheritance in full does not change the strings of a manifest. -/
theorem textsOfServices_normalizeExtends (services : RawServices) :
    textsOfServices (normalizeExtends services) = textsOfServices services := by
  have hservice : ∀ fields, Value.textsOfEntries (normalizeService fields) =
      Value.textsOfEntries fields := by
    intro fields
    rw [Value.textsOfEntries_eq_flatMap, Value.textsOfEntries_eq_flatMap, normalizeService,
      List.flatMap_map]
    refine List.flatMap_congr fun e _ => ?_
    dsimp only
    split
    · exact texts_fullExtends e.2
    · rfl
  rw [textsOfServices, normalizeExtends, Entries.mapValues, List.flatMap_map]
  exact List.flatMap_congr fun e _ => hservice e.2

namespace Merging

variable {options : Options} {m : Manifest}

/-- What becomes of a manifest depends on what becomes of its strings. -/
theorem substitute_congr (h : SameTexts env env' policy policy' m.texts) :
    substitute env { options with undefined := policy } m =
      substitute env' { options with undefined := policy' } m := by
  obtain ⟨hservices, hsections⟩ := List.forall_mem_append.1 h
  obtain ⟨hvolumes, hnetworks⟩ := List.forall_mem_append.1 hsections
  unfold substitute
  rw [interpolateServices_congr hservices, interpolateSection_congr hvolumes,
    interpolateSection_congr hnetworks]

/-- Where no string changes, a manifest stays as it is. -/
theorem substitute_eq_self (h : LeavesTexts env options.undefined m.texts) :
    substitute env options m = .ok m := by
  obtain ⟨hservices, hsections⟩ := List.forall_mem_append.1 h
  obtain ⟨hvolumes, hnetworks⟩ := List.forall_mem_append.1 hsections
  unfold substitute
  rw [interpolateServices_eq_self hservices, interpolateSection_eq_self hvolumes,
    interpolateSection_eq_self hnetworks]
  split <;> rfl

end Merging

/-! ### Merges -/

/-- The environment is only used where references are replaced. -/
theorem mergeManifest_congr {existing : Services} {resources : Option ResourceLookup}
    {options : Options} {interpolate interpolate' : Bool} {file : Path} {m : Manifest}
    (h : Merging.substitute env { options with interpolate := interpolate, undefined := policy }
        { m with services := normalizeExtends m.services } =
      Merging.substitute env' { options with interpolate := interpolate', undefined := policy' }
        { m with services := normalizeExtends m.services }) :
    mergeManifest existing ⟨env, resources⟩
        { options with interpolate := interpolate, undefined := policy } file m =
      mergeManifest existing ⟨env', resources⟩
        { options with interpolate := interpolate', undefined := policy' } file m := by
  unfold mergeManifest Merging.prepare
  simp only [h]
  rfl

/-- **Only referenced variables matter.** Whatever is stored, and whatever resources and options there
are, errors included,

* two environments that agree on the variables that the strings of a manifest refer to merge it to
  the same result;
* where references are not replaced, all environments and both policies for undefined variables do;
* a manifest whose strings have no dollar sign is merged as it is where references are not
  replaced. -/
theorem only_referenced_variables_matter (existing : Services) (resources : Option ResourceLookup)
    (options : Options) (file : Path) (m : Manifest) :
    (∀ env env', (∀ name ∈ m.referenced, env name = env' name) →
      mergeManifest existing ⟨env, resources⟩ options file m =
        mergeManifest existing ⟨env', resources⟩ options file m) ∧
    (∀ env env' policy policy',
      mergeManifest existing ⟨env, resources⟩
          { options with interpolate := false, undefined := policy } file m =
        mergeManifest existing ⟨env', resources⟩
          { options with interpolate := false, undefined := policy' } file m) ∧
    ((∀ s ∈ m.texts, '$' ∉ s.toList) → ∀ env env' policy policy',
      mergeManifest existing ⟨env, resources⟩
          { options with interpolate := true, undefined := policy } file m =
        mergeManifest existing ⟨env', resources⟩
          { options with interpolate := false, undefined := policy' } file m) := by
  have htexts : Manifest.texts { m with services := normalizeExtends m.services } = m.texts := by
    rw [Manifest.texts, textsOfServices_normalizeExtends, Manifest.texts]
  refine ⟨fun env env' h => ?_, fun env env' policy policy' => ?_,
    fun h env env' policy policy' => ?_⟩
  · have hsame : SameTexts env env' options.undefined options.undefined m.texts := fun s hs =>
      Reference.substitute_congr fun name hname => h name (List.mem_flatMap.2 ⟨s, hs, hname⟩)
    exact mergeManifest_congr (Merging.substitute_congr (htexts.symm ▸ hsame))
  · exact mergeManifest_congr rfl
  · have hleaves : LeavesTexts env policy m.texts := fun s hs =>
      Reference.substitute_of_not_mem (h s hs) env policy
    exact mergeManifest_congr (Merging.substitute_eq_self (htexts.symm ▸ hleaves))

/-- A manifest that refers to two variables, and names a third one in the word of a modifier. -/
def referringManifest : Manifest where
  version := "2"
  services := [("web", [("image", .string "$\x7bIMAGE:-$OTHER\x7d"), ("user", .string "$USER")])]
  volumes := []
  networks := []

/-- The third variable makes no difference. -/
theorem other_variable_of_referringManifest :
    mergeManifest .empty ⟨.ofEntries [("USER", "root")], none⟩ .standard "one.yml"
        referringManifest =
      mergeManifest .empty ⟨.ofEntries [("OTHER", "app"), ("USER", "root")], none⟩ .standard
        "one.yml" referringManifest :=
  (only_referenced_variables_matter ..).1 _ _ (by decide +kernel)

end ComposeMerge
