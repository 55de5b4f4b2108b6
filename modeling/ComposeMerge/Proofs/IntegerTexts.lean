import ComposeMerge.Proofs.ByteSizes
import ComposeMerge.Proofs.EnvFileOrigin
import ComposeMerge.Proofs.RelatedOutcomes

/-!
# Integers written as text

An integer may be given as a number or as the text of its digits, and a reference to a variable is
always a text.

* `parseCount_integerText` and `parseSize_integerText` read the digits of an integer back; a size
  has no sign, which `parseSize_integerText_of_neg` is about;
* `Respelt` and `ServicesRespelt` relate integers to their digits, and `Referring` to texts that
  become them when references are replaced; each stage of a merge keeps the relation, or does not
  see the difference;
* `integers_as_text` is the result for a conversion and for a merge.
-/

namespace ComposeMerge

open Entries (Related get?)
open Merging

/-! ### Digits -/

section Digits

variable {n : Int64}

theorem integerText_of_nonneg (h : 0 ≤ n.toInt) :
    (integerText n).toList = Nat.toDigits 10 n.toInt.toNat := by
  have hrepr : integerText n = n.toInt.repr := rfl
  rw [hrepr, Int.repr_eq_if, if_pos h, Nat.repr_eq_ofList_toDigits, String.toList_ofList]

theorem integerText_of_neg (h : n.toInt < 0) :
    (integerText n).toList = '-' :: Nat.toDigits 10 (-n.toInt).toNat := by
  have hrepr : integerText n = n.toInt.repr := rfl
  rw [hrepr, Int.repr_eq_if, if_neg (not_le.2 h), Nat.repr_eq_ofList_toDigits]
  simp

theorem isDigit_of_mem_toDigits {m : Nat} : ∀ c ∈ Nat.toDigits 10 m, c.isDigit = true :=
  fun _ hc => Nat.isDigit_of_mem_toDigits (by decide) (by decide) hc

theorem isDigits_toDigits (m : Nat) : Text.isDigits (Nat.toDigits 10 m) = true :=
  Text.isDigits_iff.2 ⟨Nat.toDigits_ne_nil, isDigit_of_mem_toDigits⟩

theorem digitsValue_toDigits (m : Nat) : Text.digitsValue (Nat.toDigits 10 m) = m := by
  rw [Text.digitsValue_eq_ofDigitChars, Nat.ofDigitChars_ten_toDigits]

/-- The text of an integer is made of digits, and perhaps a sign. -/
theorem eq_or_isDigit_of_mem_integerText {c : Char} (hc : c ∈ (integerText n).toList) :
    c = '-' ∨ c.isDigit = true := by
  by_cases hn : 0 ≤ n.toInt
  · rw [integerText_of_nonneg hn] at hc
    exact .inr (isDigit_of_mem_toDigits c hc)
  · rw [integerText_of_neg (not_le.1 hn)] at hc
    exact (List.mem_cons.1 hc).imp_right (isDigit_of_mem_toDigits c)

theorem trim_integerText (n : Int64) :
    Text.trim (integerText n).toList = (integerText n).toList := by
  refine Text.trim_of_tight (Text.tight_of_forall fun c hc => ?_)
  rcases eq_or_isDigit_of_mem_integerText hc with rfl | hdigit
  · decide
  · by_contra hblank
    rw [Text.isDigit_of_isBlank (Bool.not_eq_false _ ▸ hblank)] at hdigit
    cases hdigit

theorem plainText_integerText (n : Int64) :
    Size.plainText (integerText n) = (integerText n).toList := by
  rw [Size.plainText, trim_integerText]
  refine (List.map_congr_left fun c hc => ?_).trans (List.map_id _)
  rcases eq_or_isDigit_of_mem_integerText hc with rfl | hdigit
  · rfl
  · exact Text.toLower_of_isDigit hdigit

/-- A run of digits starts with none of the signs. -/
theorem dropStart?_toDigits {sign : Char} (hsign : sign.isDigit = false) (m : Nat) :
    Text.dropStart? [sign] (Nat.toDigits 10 m) = none := by
  obtain ⟨c, digits, hdigits⟩ := List.exists_cons_of_ne_nil (Nat.toDigits_ne_nil (b := 10) (n := m))
  have hc : c.isDigit = true := isDigit_of_mem_toDigits (m := m) c (by simp [hdigits])
  have hne : sign ≠ c := fun heq => by
    rw [heq, hc] at hsign
    cases hsign
  rw [hdigits, Text.dropStart?, if_neg hne]

/-- The digits of an integer are read back. -/
theorem integer?_integerText (n : Int64) : Text.integer? (integerText n).toList = some n := by
  have hupper := n.toInt_lt
  have hlower := n.le_toInt
  have hpow : Nat.pow 2 63 = 2 ^ 63 := rfl
  by_cases hn : 0 ≤ n.toInt
  · rw [integerText_of_nonneg hn, Text.integer?, dropStart?_toDigits (by decide)]
    have hplus : Text.dropPlus (Nat.toDigits 10 n.toInt.toNat) = Nat.toDigits 10 n.toInt.toNat := by
      rw [Text.dropPlus, dropStart?_toDigits (by decide), Option.getD_none]
    have hfits : n.toInt.toNat < 2 ^ 63 := by omega
    have hvalue : Int64.ofNat n.toInt.toNat = n :=
      Int64.toInt_inj.1 ((Int64.toInt_ofNat_of_lt hfits).trans (Int.toNat_of_nonneg hn))
    simp only [Text.natural?, hplus, isDigits_toDigits, digitsValue_toDigits, hpow, hfits,
      decide_true, Bool.and_self, if_true, Option.map_some, hvalue]
  · rw [integerText_of_neg (not_le.1 hn), Text.integer?, Text.dropStart?, if_pos rfl,
      Text.dropStart?]
    have hfits : (-n.toInt).toNat ≤ 2 ^ 63 := by omega
    have hvalue : Int64.ofInt (-((-n.toInt).toNat : Int)) = n := by
      rw [Int.toNat_of_nonneg (by omega), Int.neg_neg, Int64.ofInt_toInt]
    simp only [isDigits_toDigits, digitsValue_toDigits, hpow, hfits, decide_true, Bool.and_self,
      if_true, hvalue]

end Digits

namespace Spelling

/-- Every integer is read back from its digits as a count. -/
theorem parseCount_integerText (n : Int64) : parseCount (integerText n) = .ok n := by
  rw [parseCount, trim_integerText, integer?_integerText]

/-- What is not negative is read back from its digits as a size. -/
theorem parseSize_integerText {n : Int64} (h : 0 ≤ n.toInt) :
    parseSize (integerText n) = .ok n := by
  have hvalue : (n.toInt.toNat * 1 : Nat) = n.toInt := by simpa using Int.toNat_of_nonneg h
  have hfits : n.toInt.toNat * 1 < 2 ^ 63 := by
    have hupper := n.toInt_lt
    omega
  have hdenotes : Size.Denotes (Size.plainText (integerText n)) n.toInt.toNat 1 := by
    have hunit : ("", 1) ∈ Size.units := by simp [Size.units]
    have hdigits := Size.Denotes.intro (isDigits_toDigits n.toInt.toNat) Text.isGap_nil hunit
    rw [Nat.ofDigitChars_ten_toDigits] at hdigits
    rw [plainText_integerText, integerText_of_nonneg h]
    simpa using hdigits
  have hparse : Size.parse (integerText n) = .ok n :=
    Size.parse_eq_ok_iff.2 ⟨_, _, hdenotes, hfits, hvalue.symm⟩
  rw [parseSize, hparse]
  rfl

/-- A size has no sign. -/
theorem parseSize_integerText_of_neg {n : Int64} (h : n.toInt < 0) :
    parseSize (integerText n) = .error (.size (.number (integerText n))) := by
  have htext : Size.plainText (integerText n) = '-' :: Nat.toDigits 10 (-n.toInt).toNat := by
    rw [plainText_integerText, integerText_of_neg h]
  have hdigits : (Size.plainText (integerText n)).takeWhile Char.isDigit = [] := by
    rw [htext]
    exact List.takeWhile_cons_of_neg (by decide)
  rw [parseSize, Size.parse_eq hdigits rfl]
  rfl

end Spelling

/-! ### Integer fields -/

namespace ServiceField

/-- The fields that hold an integer. -/
def integerFields : List ServiceField :=
  [.cpuShares, .cpuQuota, .memSwappiness, .oomScoreAdj, .memLimit, .memswapLimit, .shmSize]

/-- Whether a field reads an integer from its digits. -/
def ReadsDigits (f : ServiceField) (n : Int64) : Prop :=
  f ∈ integerFields ∧ (f.kind = .size → 0 ≤ n.toInt)

theorem kind_of_mem_integerFields {f : ServiceField} (h : f ∈ integerFields) :
    f.kind = .count ∨ f.kind = .size := by
  have hall : ∀ g ∈ integerFields, g.kind = .count ∨ g.kind = .size := by decide
  exact hall f h

end ServiceField

open ServiceField (integerFields)

/-- An integer and its digits are read alike. -/
theorem FieldKind.read_integerText {k : FieldKind} {n : Int64} (hk : k = .count ∨ k = .size)
    (hn : k = .size → 0 ≤ n.toInt) (reading : Reading) :
    k.read reading (.string (integerText n)) = k.read reading (.scalar (.int n)) := by
  rcases hk with rfl | rfl
  · show (Spelling.parseCount (integerText n)).map some = .ok (some n)
    rw [Spelling.parseCount_integerText]
    rfl
  · show (Spelling.parseSize (integerText n)).map some = .ok (some n)
    rw [Spelling.parseSize_integerText (hn rfl)]
    rfl

/-! ### Services that are spelt differently -/

/-- Whether a value is left alone, or is an integer that is written as the text of its digits. -/
inductive Respelt (key : String) : Value → Value → Prop where
  | same (v : Value) : Respelt key v v
  | digits {f : ServiceField} {n : Int64} (hkey : key = f.key) (h : f.ReadsDigits n) :
    Respelt key (.scalar (.int n)) (.string (integerText n))

/-- Whether some integers of services are written as text. -/
def ServicesRespelt : RawServices → RawServices → Prop := Related fun _ => Related Respelt

section Respelt

variable {key : String} {v w : Value} {fields fields' : RawService}

/-- The values of all other fields are the same. -/
theorem Respelt.eq_of_forall_ne (h : Respelt key v w) (hkey : ∀ f ∈ integerFields, f.key ≠ key) :
    v = w := by
  cases h with
  | same => rfl
  | digits hf h => exact absurd hf.symm (hkey _ h.1)

theorem get?_of_respelt (h : Related Respelt fields fields')
    (hkey : ∀ f ∈ integerFields, f.key ≠ key) : get? key fields = get? key fields' := by
  have hrel := h.get? key
  generalize get? key fields = o, get? key fields' = o' at hrel
  cases hrel with
  | none => rfl
  | some hv => rw [hv.eq_of_forall_ne hkey]

theorem putField_of_respelt (reading : Reading) (c : ServiceConfig) (h : Respelt key v w) :
    c.putField reading key v = c.putField reading key w := by
  cases h with
  | same => rfl
  | @digits f n hkey h =>
    have hkind := ServiceField.kind_of_mem_integerFields h.1
    have hread := FieldKind.read_integerText hkind h.2 reading
    rw [hkey, ServiceConfig.putField, ServiceConfig.putField, ServiceField.ofKey?_key]
    simp only [hread]

/-- Integers that are written as text are read as the same service. -/
theorem putFields_of_respelt (reading : Reading) (c : ServiceConfig)
    (h : Related Respelt fields fields') :
    c.putFields reading fields = c.putFields reading fields' := by
  induction h using Related.induct generalizing c with
  | nil => rfl
  | cons hv _ ih => simp only [ServiceConfig.putFields, putField_of_respelt reading c hv, ih]

/-- The fields that only a legacy service has hold no integer. -/
theorem putEntries_of_respelt (own : LegacyService) (h : Related Respelt fields fields') :
    LegacyService.ownShape.putEntries own fields =
      LegacyService.ownShape.putEntries own fields' := by
  have hnone : ∀ f ∈ integerFields,
      LegacyService.ownShape.fields.find? (fun field => field.name = f.key) = none := by
    decide +kernel
  induction h using Related.induct generalizing own with
  | nil => rfl
  | @cons k v w _ _ hv _ ih =>
    have hentry : LegacyService.ownShape.putEntry own (k, v) =
        LegacyService.ownShape.putEntry own (k, w) := by
      cases hv with
      | same => rfl
      | digits hkey h =>
        subst hkey
        simp only [RecordShape.putEntry, hnone _ h.1]
    simp only [RecordShape.putEntries, hentry, ih]

theorem readLegacy_of_respelt (h : Related Respelt fields fields') :
    LegacyService.read fields = LegacyService.read fields' := by
  have hshared := putFields_of_respelt .chosen .empty
    (h.filter fun key => !LegacyService.ownKeys.contains key)
  simp only [LegacyService.read, RecordShape.ofMapping, LegacyService.sharedFields,
    putEntries_of_respelt _ h, hshared]

end Respelt

/-! ### Sizes with a sign -/

/-- A negative size is refused as text. -/
theorem putField_of_negative_size {f : ServiceField} {n : Int64} (hf : f.kind = .size)
    (hn : n.toInt < 0) (c : ServiceConfig) :
    c.putField .direct f.key (.string (integerText n)) =
      .error (.size (.number (integerText n))) := by
  have hread : ∀ {k : FieldKind}, k = .size →
      k.read .direct (.string (integerText n)) = .error (.size (.number (integerText n))) := by
    rintro k rfl
    show (Spelling.parseSize (integerText n)).map some = _
    rw [Spelling.parseSize_integerText_of_neg hn]
    rfl
  rw [ServiceConfig.putField, ServiceField.ofKey?_key]
  simp only [hread hf]
  rfl

/-- Where a service can be read with a negative size, it cannot be read with its text. -/
theorem putFields_of_negative_size {f : ServiceField} {n : Int64} (hf : f.kind = .size)
    (hn : n.toInt < 0) {fields : RawService} {c d : ServiceConfig}
    (h : c.putFields .direct (fields.insert f.key (.scalar (.int n))) = .ok d) :
    c.putFields .direct (fields.insert f.key (.string (integerText n))) =
      .error (.size (.number (integerText n))) := by
  have hhead : ∀ (c : ServiceConfig) (rest : RawService),
      c.putFields .direct ((f.key, .string (integerText n)) :: rest) =
        .error (.size (.number (integerText n))) := fun c rest => by
    rw [ServiceConfig.putFields, putField_of_negative_size hf hn]
    rfl
  induction fields generalizing c with
  | nil => exact hhead c []
  | cons e fields ih =>
    obtain ⟨k, v⟩ := e
    rw [Entries.insert] at h ⊢
    split_ifs at h ⊢ with hk hlt
    · exact hhead c fields
    · exact hhead c _
    · obtain ⟨c', hc', h⟩ := Outcome.bind_eq_ok_iff.1 h
      rw [ServiceConfig.putFields, hc', Outcome.bind_ok]
      exact ih h

/-! ### Merges -/

theorem validate_of_respelt {services services' : RawServices}
    (h : ServicesRespelt services services') :
    Validation.validate services = Validation.validate services' := by
  have hchecked : ∀ f ∈ integerFields, ∀ check ∈ Validation.checks, f.key ≠ check.1 := by
    decide +kernel
  induction h using Related.induct with
  | nil => rfl
  | @cons name fields fields' _ _ hfields _ ih =>
    have hfault : Validation.serviceFault? name fields = Validation.serviceFault? name fields' := by
      unfold Validation.serviceFault?
      split
      · rw [← List.head?_filterMap, ← List.head?_filterMap]
        refine congrArg _ (List.filterMap_congr fun check hcheck => ?_)
        simp only [get?_of_respelt hfields fun f hf => hchecked f hf check hcheck]
      · rfl
    simp only [Validation.validate, Validation.validateService, hfault, ih]

/-- Laying values over each other keeps the digits of integers. -/
theorem respelt_overlay {key : String} {v w x y : Value} (hbase : Respelt key v w)
    (h : Respelt key x y) : Respelt key (overlay key v x) (overlay key w y) := by
  cases h with
  | digits hkey hdigits => exact .digits hkey hdigits
  | same =>
    cases hbase with
    | same => exact .same _
    | digits =>
      rw [overlay_scalar_left, Value.string, overlay_scalar_left]
      exact .same _

theorem respelt_overlayEntries {base base' fields fields' : RawService}
    (hbase : Related Respelt base base') (h : Related Respelt fields fields') :
    Related Respelt (overlayEntries base fields) (overlayEntries base' fields') := by
  induction h using Related.induct generalizing base base' with
  | nil => simpa only [overlayEntries] using hbase
  | @cons k _ _ _ _ hv _ ih =>
    rw [overlayEntries_cons, overlayEntries_cons]
    refine ih (hbase.insert ?_)
    have hrel := hbase.get? k
    generalize get? k base = o, get? k base' = o' at hrel
    cases hrel with
    | none => exact hv
    | some hexisting => exact respelt_overlay hexisting hv

theorem respelt_resolveEnvFiles (lookup : Option ResourceLookup) (file : Path)
    {fields fields' : RawService} (h : Related Respelt fields fields') :
    Outcome.Alike (Related Respelt) (resolveEnvFiles lookup file fields)
      (resolveEnvFiles lookup file fields') := by
  have hfiles : get? EnvFile.filesField fields = get? EnvFile.filesField fields' :=
    get?_of_respelt h (by decide)
  have henvironment :
      get? EnvFile.environmentField fields = get? EnvFile.environmentField fields' :=
    get?_of_respelt h (by decide)
  have hown : EnvFile.ownEntries fields = EnvFile.ownEntries fields' := by
    unfold EnvFile.ownEntries
    rw [henvironment]
  unfold resolveEnvFiles
  rw [hfiles, hown]
  cases get? EnvFile.filesField fields' with
  | none => exact .ok h
  | some declared =>
    refine Outcome.Alike.bind_same fun references => ?_
    split
    · exact .ok h
    · split
      · exact .error _
      · exact Outcome.Alike.bind_same fun own => Outcome.Alike.bind_same fun entries =>
          .ok (h.insert (.same _))

section Merges

variable (existing : Services) (lookup : Option ResourceLookup) (file : Path) (name : String)
  {fields fields' : RawService}

theorem mergeService_of_respelt (h : Related Respelt fields fields') :
    mergeService existing lookup file name fields =
      mergeService existing lookup file name fields' := by
  have hlay : Related Respelt (layOver existing name fields) (layOver existing name fields') := by
    unfold layOver
    split
    · exact respelt_overlayEntries (.refl (fun _ v => .same v) _) h
    · exact h
  refine (respelt_resolveEnvFiles lookup file hlay).bind_eq fun hresolved => ?_
  simp only [ServiceConfig.read, putFields_of_respelt .direct .empty hresolved]

theorem mergeLegacyService_of_respelt (h : Related Respelt fields fields') :
    mergeLegacyService existing lookup file name fields =
      mergeLegacyService existing lookup file name fields' := by
  simp only [mergeLegacyService, widenService, readLegacy_of_respelt h]

theorem mergeServices_of_respelt (schema : Schema) {m m' : Manifest}
    (hversion : m.version = m'.version) (h : ServicesRespelt m.services m'.services) :
    mergeServices existing lookup file schema m = mergeServices existing lookup file schema m' := by
  cases schema with
  | v1 =>
    exact h.traverse_eq fun name _ _ hfields =>
      mergeLegacyService_of_respelt existing lookup file name hfields
  | v2 =>
    exact h.traverse_eq fun name _ _ hfields =>
      mergeService_of_respelt existing lookup file name hfields
  | v3 => rw [mergeServices, mergeServices, hversion]

end Merges

/-! ### References to integers -/

/-- Whether a value is left alone, or is an integer in whose place stands a text that becomes its
digits when references are replaced. -/
inductive Referring (env : Environment) (policy : UndefinedPolicy) (key : String) :
    Value → Value → Prop where
  | same (v : Value) : Referring env policy key v v
  | reference {f : ServiceField} {n : Int64} {text : String} (hkey : key = f.key)
    (h : f.ReadsDigits n)
    (htext : Reference.substitute env policy text = .ok (integerText n)) :
    Referring env policy key (.scalar (.int n)) (.string text)

/-- Whether services refer to some integers instead of giving them. -/
def ServicesReferring (env : Environment) (policy : UndefinedPolicy) :
    RawServices → RawServices → Prop :=
  Related fun _ => Related (Referring env policy)

/-- A hook treats an integer and its digits alike. -/
def KeepsSpellings (hook : Option (RawServices → Except Error RawServices)) : Prop :=
  ∀ run ∈ hook, ∀ {services services'}, ServicesRespelt services services' →
    Outcome.Alike ServicesRespelt (run services) (run services')

/-- Whether two manifests differ in nothing but the spelling of integers. -/
structure ManifestsRespelt (m m' : Manifest) : Prop where
  services : ServicesRespelt m.services m'.services
  rest : m' = { m with services := m'.services }

section References

variable {env : Environment} {policy : UndefinedPolicy} {services services' : RawServices}

theorem respelt_interpolate (field : String) {key : String} {v w : Value}
    (h : Referring env policy key v w) :
    Outcome.Alike (Respelt key) (interpolate env policy field v)
      (interpolate env policy field w) := by
  cases h with
  | same => exact .refl .same _
  | reference hkey hdigits htext =>
    rw [Value.string, interpolate, interpolate, interpolateText, htext]
    · exact .ok (.digits hkey hdigits)
    · rintro s ⟨⟩

theorem respelt_interpolateService (service : String) {fields fields' : RawService}
    (h : Related (Referring env policy) fields fields') :
    Outcome.Alike (Related Respelt) (interpolateService env policy service fields)
      (interpolateService env policy service fields') :=
  Related.traverse (fun key _ _ hv => respelt_interpolate (service ++ "." ++ key) hv) h

theorem respelt_interpolateServices (h : ServicesReferring env policy services services') :
    Outcome.Alike ServicesRespelt (interpolateServices env policy services)
      (interpolateServices env policy services') :=
  Related.traverse (fun service _ _ hfields => respelt_interpolateService service hfields) h

/-- Declarations of inheritance hold no integer. -/
theorem referring_fullField (key : String) {v w : Value} (h : Referring env policy key v w) :
    Referring env policy key (fullField key v) (fullField key w) := by
  have hextends : ∀ f ∈ integerFields, f.key ≠ extendsField := by decide
  cases h with
  | same => exact .same _
  | reference hkey hdigits htext =>
    have hne : key ≠ extendsField := hkey ▸ hextends _ hdigits.1
    rw [fullField, fullField, if_neg hne, if_neg hne]
    exact .reference hkey hdigits htext

theorem referring_normalizeService {fields fields' : RawService}
    (h : Related (Referring env policy) fields fields') :
    Related (Referring env policy) (normalizeService fields) (normalizeService fields') :=
  Related.map referring_fullField h

theorem referring_normalizeExtends (h : ServicesReferring env policy services services') :
    ServicesReferring env policy (normalizeExtends services) (normalizeExtends services') :=
  Related.map (fun _ {_ _} hfields => referring_normalizeService hfields) h

theorem KeepsSpellings.runHook {hook : Option (RawServices → Except Error RawServices)}
    (hhook : KeepsSpellings hook) (h : ServicesRespelt services services') :
    Outcome.Alike ServicesRespelt (runHook hook services) (runHook hook services') := by
  cases hook with
  | none => exact .ok h
  | some run => exact hhook run rfl h

/-- What references make of a manifest. -/
theorem respelt_substitute {options : Options} (hinterpolate : options.interpolate = true)
    {m m' : Manifest} (hservices : ServicesReferring env options.undefined m.services m'.services)
    (hrest : m' = { m with services := m'.services }) :
    Outcome.Alike ManifestsRespelt (substitute env options m) (substitute env options m') := by
  rw [hrest]
  unfold substitute
  rw [if_pos hinterpolate, if_pos hinterpolate]
  refine (respelt_interpolateServices hservices).bind fun hresult => ?_
  exact Outcome.Alike.bind_same fun volumes => Outcome.Alike.bind_same fun networks =>
    .ok ⟨hresult, rfl⟩

/-- What becomes of a manifest before it is merged. -/
theorem respelt_prepare {options : Options} (hinterpolate : options.interpolate = true)
    (hhook : KeepsSpellings options.preprocess) (m : Manifest)
    (h : ServicesReferring env options.undefined services services') :
    Outcome.Alike ManifestsRespelt (prepare env options { m with services := services })
      (prepare env options { m with services := services' }) := by
  have hsubstitute : Outcome.Alike ManifestsRespelt
      (substitute env options { m with services := normalizeExtends services })
      (substitute env options { m with services := normalizeExtends services' }) :=
    respelt_substitute hinterpolate (referring_normalizeExtends h) rfl
  refine hsubstitute.bind fun {a a'} ha => ?_
  obtain ⟨hservices, hrest⟩ := ha
  refine (hhook.runHook hservices).bind fun {b b'} hb => ?_
  have hcheck : check options b = check options b' := by
    unfold check
    rw [validate_of_respelt hb]
  rw [hcheck]
  refine Outcome.Alike.bind_same fun _ => .ok ⟨hb, ?_⟩
  rw [hrest]

/-- Manifests that refer to integers instead of giving them merge to the same result. -/
theorem mergeManifest_of_referring {options : Options} (hinterpolate : options.interpolate = true)
    (hhook : KeepsSpellings options.preprocess) (existing : Services)
    (resources : Option ResourceLookup) (file : Path) (m : Manifest)
    (h : ServicesReferring env options.undefined services services') :
    mergeManifest existing ⟨env, resources⟩ options file { m with services := services } =
      mergeManifest existing ⟨env, resources⟩ options file { m with services := services' } := by
  refine congrArg (m.schema >>= ·) (funext fun schema => ?_)
  refine (respelt_prepare hinterpolate hhook m h).bind_eq fun {a a'} ha => ?_
  obtain ⟨hservices, hrest⟩ := ha
  have hversion : a.version = a'.version := by rw [hrest]
  have hvolumes : a.volumes = a'.volumes := by rw [hrest]
  have hnetworks : a.networks = a'.networks := by rw [hrest]
  simp only [mergeServices_of_respelt existing resources file schema hversion hservices, hversion,
    hvolumes, hnetworks]

end References

/-- A manifest in which a text stands in place of an integer merges to the same result when the text
becomes the digits of the integer. -/
theorem mergeManifest_of_reference {f : ServiceField} {n : Int64} (hdigits : f.ReadsDigits n)
    {around : Surroundings} {options : Options} {text : String}
    (hinterpolate : options.interpolate = true) (hhook : KeepsSpellings options.preprocess)
    (htext : Reference.substitute around.environment options.undefined text = .ok (integerText n))
    (existing : Services) (file : Path) (m : Manifest) (earlier later : RawServices) (name : String)
    (fields : RawService) :
    mergeManifest existing around options file
        { m with services := earlier ++ (name, fields.insert f.key (.scalar (.int n))) :: later } =
      mergeManifest existing around options file
        { m with services := earlier ++ (name, fields.insert f.key (.string text)) :: later } := by
  have hsame : ∀ fields : RawService,
      Related (Referring around.environment options.undefined) fields fields :=
    .refl fun _ v => .same v
  have hservices : ServicesReferring around.environment options.undefined
      (earlier ++ (name, fields.insert f.key (.scalar (.int n))) :: later)
      (earlier ++ (name, fields.insert f.key (.string text)) :: later) :=
    List.rel_append (Related.refl (fun _ => hsame) earlier)
      (.cons ⟨rfl, (hsame fields).insert (.reference rfl hdigits htext)⟩
        (Related.refl (fun _ => hsame) later))
  exact mergeManifest_of_referring hinterpolate hhook existing around.resources file m hservices

/-- **Integers may be written as text.**

* A service whose field holds an integer, but not a negative size, is converted to the same service
  when the field holds the text of its digits instead, errors in other fields included.
* A reference that is replaced by these digits never changes the result of a merge, whatever is
  stored and whatever else the manifest contains; a hook must not tell the spellings apart.
* A size has no sign: where a service can be converted with a negative size, its text is refused. -/
theorem integers_as_text {f : ServiceField} (hf : f ∈ integerFields) (n : Int64) (name : String)
    (fields : RawService) :
    ((f.kind = .size → 0 ≤ n.toInt) →
      convert name (ServiceConfig.read (fields.insert f.key (.scalar (.int n)))) =
          convert name (ServiceConfig.read (fields.insert f.key (.string (integerText n)))) ∧
        ∀ (around : Surroundings) (options : Options) (text : String), options.interpolate = true →
          KeepsSpellings options.preprocess →
          Reference.substitute around.environment options.undefined text = .ok (integerText n) →
            ∀ existing file (m : Manifest) earlier later,
              mergeManifest existing around options file { m with
                  services := earlier ++ (name, fields.insert f.key (.scalar (.int n))) :: later } =
                mergeManifest existing around options file { m with
                  services := earlier ++ (name, fields.insert f.key (.string text)) :: later }) ∧
    (f.kind = .size → n.toInt < 0 → ∀ c,
      convert name (ServiceConfig.read (fields.insert f.key (.scalar (.int n)))) = .ok c →
        convert name (ServiceConfig.read (fields.insert f.key (.string (integerText n)))) =
          .error (.conversion name (.size (.number (integerText n))))) := by
  refine ⟨fun hn => ⟨?_, fun around options text hinterpolate hhook htext existing file m earlier
    later => ?_⟩, fun hsize hn c h => ?_⟩
  · have hsame : Related Respelt fields fields := .refl (fun _ v => .same v) fields
    have hrespelt := hsame.insert (.digits rfl ⟨hf, hn⟩)
    exact congrArg _ (putFields_of_respelt .direct .empty hrespelt)
  · exact mergeManifest_of_reference ⟨hf, hn⟩ hinterpolate hhook htext existing file m earlier later
      name fields
  · have hread := Outcome.mapError_eq_ok_iff.1 h
    exact congrArg _ (putFields_of_negative_size hsize hn hread)

/-- A service with a memory limit. -/
def limitedWeb (limit : Value) : RawServices :=
  [("web", [("image", .string "app"), ("mem_limit", limit)])]

/-- What becomes of the service. -/
def webLimitedTo (limit : Int64) : ServiceConfig :=
  (ServiceConfig.empty.set .image (some "app")).set .memLimit (some limit)

/-- A limit, given as a number and as a reference; and a size with a sign. -/
theorem integers_of_limitedWeb :
    convert "web" (ServiceConfig.read [("image", .string "app"), ("mem_limit", .string "64")]) =
        .ok (webLimitedTo 64) ∧
      (∀ limit ∈ [Value.scalar (.int 64), .string "$M"],
        (mergeManifest .empty ⟨.ofEntries [("M", "64")], none⟩ .standard "one.yml"
          ⟨"2", limitedWeb limit, [], []⟩).map (fun merged => merged.services.get? "web") =
            .ok (some (webLimitedTo 64))) ∧
      convert "web" (ServiceConfig.read [("image", .string "app"), ("mem_limit", .string "-5")]) =
        .error (.conversion "web" (.size (.number "-5"))) := by
  have hmem : ServiceField.memLimit ∈ integerFields := by decide
  obtain ⟨hconvert, hmerge⟩ :=
    (integers_as_text hmem 64 "web" [("image", .string "app")]).1 fun _ => by decide
  have hsame := hmerge ⟨.ofEntries [("M", "64")], none⟩ .standard "$M" rfl
    (fun run hrun => by cases hrun) (by decide +kernel) .empty "one.yml" ⟨"2", [], [], []⟩ [] []
  have hnumber : (mergeManifest .empty ⟨.ofEntries [("M", "64")], none⟩ .standard "one.yml"
      ⟨"2", limitedWeb (.scalar (.int 64)), [], []⟩).map (fun merged =>
        merged.services.get? "web") = .ok (some (webLimitedTo 64)) := by
    decide +kernel
  refine ⟨hconvert.symm.trans (by decide +kernel),
    List.forall_mem_cons.2 ⟨hnumber, List.forall_mem_singleton.2 ?_⟩, ?_⟩
  · exact (congrArg _ hsame).symm.trans hnumber
  · exact (integers_as_text hmem (-5) "web" [("image", .string "app")]).2 rfl (by decide)
      (webLimitedTo (-5)) (by decide +kernel)

/-- The number that lifts a limit is a size, but its text is none. -/
theorem negative_size_refused_as_text :
    convert "web" (ServiceConfig.read [("memswap_limit", .scalar (.int (-1)))]) =
        .ok (ServiceConfig.empty.set .memswapLimit (some (-1))) ∧
      convert "web" (ServiceConfig.read [("memswap_limit", .string (integerText (-1)))]) =
        .error (.conversion "web" (.size (.number "-1"))) :=
  ⟨by decide +kernel, by decide +kernel⟩

end ComposeMerge
