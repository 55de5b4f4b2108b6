import ComposeMerge.Proofs.Merge
import ComposeMerge.Proofs.RawForm

/-!
# A legacy service over a stored one

A service of version 1 is typed and widened before it is laid over what is stored. Two orders of
precedence meet there: inside the service the legacy spelling of a setting counts before the later
one, and the service counts before what is stored.

* `Slot.Over` says what one setting laid over another is read as; `over_build` and `over_logging`
  take it apart into the parts of these settings;
* `LegacyService.GivenBy`: what a body says about build, logging and network settings;
* `LegacyService.over_widenBuild` and `LegacyService.over_widenLogging`: widening lays settings over
  each other, too;
* `LegacyService.Overrides` is the outcome of both, and `mergeServices_legacy_overrides` says that
  merging gives it.
-/

namespace ComposeMerge

open Entries (Sorted get?)
open Merging

/-! ### A setting over another -/

namespace Slot

variable {α β γ : Type}

/-- What `b` is written as, laid over what `a` is written as, is read as `c`. -/
def Over (s : Slot α) (key : String) (a b c : α) : Prop :=
  s.read (overlaySlot key (s.write a) (s.write b)) = .ok c

/-- Of two scalars that may be missing, the one on top counts unless it is missing. -/
theorem IsScalar.eq_or_of_over {s : Slot (Option α)} (h : s.IsScalar)
    (hwrite : ∀ a, s.write a = none ↔ a = none) {key : String} {a b c : Option α}
    (hover : s.Over key a b c) : c = b.or a := by
  unfold Over at hover
  cases b with
  | none =>
    rw [(hwrite none).2 rfl, overlaySlot_none_right, h.sound.read_write] at hover
    cases hover
    rfl
  | some t =>
    obtain ⟨w, hw⟩ : ∃ w, s.write (some t) = some w :=
      Option.ne_none_iff_exists'.1 fun hnone => by cases (hwrite _).1 hnone
    rw [hw, h.overlay_write, ← hw, h.sound.read_write] at hover
    cases hover
    rfl

/-- A mapping over a mapping is read part by part. -/
theorem IsMapping.over {s : Slot α} {embed : β → α} {read : Entries Value → Read β}
    {write : β → Entries Value} {parts : Part β → Prop} (h : s.IsMapping embed read write)
    (hasm : Assembled parts read write) (hsound : ∀ p, parts p → p.slot.Sound) {key : String}
    {a b : β} {d : α} (hover : s.Over key (embed a) (embed b) d) :
    ∃ c, embed c = d ∧ ∀ p, parts p → p.slot.Over p.name (p.get a) (p.get b) (p.get c) := by
  have hwb := (hasm.canonical_write b).sorted
  have hsorted := hasm.sorted_overlay_write a (write b)
  obtain ⟨c, hc, rfl⟩ : ∃ c, read (overlayEntries (write a) (write b)) = .ok c ∧ embed c = d := by
    unfold Over at hover
    -- A mapping without keys may be written as nothing, which leaves everything as it is.
    rcases h.write_embed b with hw | ⟨hnil, hw⟩
    · rw [hw, h.overlay_embed a hwb] at hover
      exact (h.read_mapping hsorted).1 hover
    · rw [hw, overlaySlot_none_right, h.sound.read_write] at hover
      rw [hnil, overlayEntries]
      exact ⟨a, hasm.read_write hsound a, Except.ok.inj hover⟩
  refine ⟨c, rfl, fun p hp => ?_⟩
  have hpart := (hasm.read_iff hsorted).1 hc p hp
  rwa [hasm.get?_overlay_write a hwb hp, hasm.get?_write b p hp] at hpart

/-- A record that may be missing over another: what is missing changes nothing, and `both` relates
two records that are there with the outcome. -/
inductive OverOption (both : β → β → β → Prop) : Option β → Option β → Option β → Prop where
  | missing (a : Option β) : OverOption both a none a
  | alone (b : Option β) : OverOption both none b b
  | both {a b c : β} (h : both a b c) : OverOption both (some a) (some b) (some c)

namespace OverOption

variable {both : β → β → β → Prop} {a b c : Option β}

theorem eq_none_iff (h : OverOption both a b c) : c = none ↔ a = none ∧ b = none := by
  cases h <;> simp

/-- What is taken out of a record counts on top, unless it is missing. -/
theorem bind_eq (h : OverOption both a b c) (get : β → Option γ)
    (hget : ∀ {a b c}, both a b c → get c = (get b).or (get a)) :
    c.bind get = (b.bind get).or (a.bind get) := by
  cases h with
  | missing => simp
  | alone => simp
  | both h => exact hget h

end OverOption

/-- A record that may be missing over another. -/
theorem IsMapping.overOption {s : Slot (Option β)} {read : Entries Value → Read β}
    {write : β → Entries Value} {parts : Part β → Prop} (h : s.IsMapping some read write)
    (hasm : Assembled parts read write) (hsound : ∀ p, parts p → p.slot.Sound)
    {both : β → β → β → Prop}
    (hboth : ∀ {a b c}, (∀ p, parts p → p.slot.Over p.name (p.get a) (p.get b) (p.get c)) →
      both a b c)
    {key : String} {a b c : Option β} (hover : s.Over key a b c) : OverOption both a b c := by
  have hnone : s.write none = none :=
    (h.write_cases none).resolve_right fun ⟨_, hsome, _⟩ => by cases hsome
  cases b with
  | none =>
    rw [Over, hnone, overlaySlot_none_right, h.sound.read_write] at hover
    cases hover
    exact .missing a
  | some b =>
    cases a with
    | none =>
      rw [Over, hnone, overlaySlot_none_left, h.sound.read_write] at hover
      cases hover
      exact .alone (some b)
    | some a =>
      obtain ⟨c, rfl, hc⟩ := h.over hasm hsound hover
      exact .both (hboth hc)

end Slot

open Slot (Over OverOption)

theorem eq_or_of_over_text {read : Value → Read (Option String)}
    (h : (Slot.of none read Written.text).IsScalar) {key : String} {a b c : Option String}
    (hover : (Slot.of none read Written.text).Over key a b c) : c = b.or a :=
  h.eq_or_of_over (fun a => by cases a <;> simp [Slot.of_write, Written.text]) hover

/-- Texts by name over others, name by name. -/
theorem get?_of_over_labels {key : String} {a b c : Table String}
    (hover : labelsSlot.Over key a b c) (name : String) :
    c.get? name = (b.get? name).or (a.get? name) := by
  have hsound : ∀ p, (∃ name, p = labelPart name) → p.slot.Sound := by
    rintro _ ⟨name, rfl⟩
    exact isScalar_labelEntry.sound
  obtain ⟨_, rfl, hparts⟩ := isMapping_labels.over assembled_labels hsound hover
  refine isScalar_labelEntry.eq_or_of_over (fun a => ?_) (hparts (labelPart name) ⟨name, rfl⟩)
  cases a <;> simp [labelEntry, entrySlot, Slot.of_write]

/-- Build settings over others, part by part. -/
def Build.Over (a b c : Build) : Prop :=
  c.context = b.context.or a.context ∧ c.dockerfile = b.dockerfile.or a.dockerfile ∧
    ∀ name, c.args.get? name = (b.args.get? name).or (a.args.get? name)

/-- Logging settings over others, part by part. -/
def Logging.Over (a b c : Logging) : Prop :=
  c.driver = b.driver.or a.driver ∧
    ∀ name, c.options.get? name = (b.options.get? name).or (a.options.get? name)

theorem over_build {key : String} {a b c : Option Build}
    (h : FieldKind.build.slot.Over key a b c) : OverOption Build.Over a b c := by
  refine isMapping_build.overOption buildLaws.assembled (forall_part_iff.2 sound_buildComponents)
    (fun hparts => ?_) h
  simp only [forall_part_iff, buildComponents, List.forall_mem_cons] at hparts
  exact ⟨eq_or_of_over_text isScalar_string hparts.1,
    eq_or_of_over_text isScalar_string hparts.2.1, get?_of_over_labels hparts.2.2.1⟩

theorem over_logging {key : String} {a b c : Option Logging}
    (h : FieldKind.logging.slot.Over key a b c) : OverOption Logging.Over a b c := by
  refine (isMapping_logging .direct).overOption loggingLaws.assembled
    (forall_part_iff.2 sound_loggingComponents) (fun hparts => ?_) h
  simp only [forall_part_iff, loggingComponents, List.forall_mem_cons] at hparts
  exact ⟨eq_or_of_over_text isScalar_string hparts.1, get?_of_over_labels hparts.2.1⟩

/-- The settings of a service that is laid over a stored one, field by field. -/
theorem over_mergeOnto {x w c : ServiceConfig} {lookup : Option ResourceLookup} {file : Path}
    {name : String} (h : mergeOnto x lookup file name w.toRaw = .ok c) {f : ServiceField}
    (hf : f ≠ .environment) : f.kind.slot.Over f.key (x.get f) (w.get f) (c.get f) := by
  have hget := get_mergeOnto w.canonical_toRaw.sorted h hf
  rwa [w.get?_toRaw f] at hget

/-! ### The settings of interest -/

namespace ServiceConfig

def buildContext (c : ServiceConfig) : Option String := c.build.bind Build.context

/-- The path of the Dockerfile. -/
def dockerfile (c : ServiceConfig) : Option String := c.build.bind Build.dockerfile

/-- The build argument of a name. -/
def buildArg? (c : ServiceConfig) (name : String) : Option String :=
  c.build.bind fun b => b.args.get? name

def logDriver (c : ServiceConfig) : Option String := c.logging.bind Logging.driver

/-- The logging option of a name. -/
def logOption? (c : ServiceConfig) (name : String) : Option String :=
  c.logging.bind fun l => l.options.get? name

end ServiceConfig

namespace LegacyService

/-- What raw fields say about build, logging and network settings, in either spelling. -/
structure GivenBy (s : LegacyService) (fields : RawService) : Prop where
  build : (get? "build" fields).elim (.ok none) Spelling.text = .ok s.build
  dockerfile : (get? "dockerfile" fields).elim (.ok none) Spelling.text = .ok s.dockerfile
  logDriver : (get? "log_driver" fields).elim (.ok none) Spelling.text = .ok s.logDriver
  logOpt : (get? "log_opt" fields).elim (.ok .empty) Spelling.labels = .ok s.logOpt
  net : (get? "net" fields).elim (.ok none) Spelling.text = .ok s.net
  logging : (get? "logging" fields).elim (.ok none) (Spelling.logging .chosen) =
    .ok s.shared.logging
  networkMode : (get? "network_mode" fields).elim (.ok none) Spelling.text =
    .ok s.shared.networkMode

theorem get?_sharedFields (fields : RawService) {key : String} (hkey : key ∉ ownKeys) :
    get? key (sharedFields fields) = get? key fields := by
  rw [sharedFields, Entries.get?_filter fun key => !ownKeys.contains key,
    if_pos (by simpa using hkey)]

theorem givenBy_of_read {fields : RawService} {s : LegacyService} (hsorted : Sorted fields)
    (h : read fields = .ok s) : s.GivenBy fields := by
  obtain ⟨own, hown, h⟩ := Outcome.bind_eq_ok_iff.1 h
  obtain ⟨shared, hshared, h⟩ := Outcome.bind_eq_ok_iff.1 h
  cases h
  have hput : ownShape.putEntries empty fields = .ok own :=
    (RecordShape.ofMapping_plain ..).symm.trans hown
  have hread := ownLaws.get_putEntries hsorted.distinct hput
  simp only [ownComponents, List.forall_mem_cons] at hread
  obtain ⟨hbuild, hdockerfile, hlogDriver, hlogOpt, hnet, -⟩ := hread
  have hsortedShared : Sorted (sharedFields fields) := hsorted.filter _
  have hget := (ServiceConfig.putFields_eq_ok_iff .chosen hsortedShared).1 hshared
  have hlogging := hget .logging
  have hnetworkMode := hget .networkMode
  rw [get?_sharedFields fields (by decide)] at hlogging hnetworkMode
  exact ⟨hbuild, hdockerfile, hlogDriver, hlogOpt, hnet, hlogging, hnetworkMode⟩

/-! ### The form of later versions -/

variable (s : LegacyService)

/-- The build settings that the legacy fields give. -/
def ownBuild : Option Build :=
  if s.build.isSome || s.dockerfile.isSome then some ⟨s.build, s.dockerfile, .empty⟩ else none

/-- The logging settings that the legacy fields give. -/
def ownLogging : Option Logging :=
  if s.logDriver.isSome || !s.logOpt.isEmpty then some ⟨s.logDriver, s.logOpt⟩ else none

theorem ownBuild_eq_none_iff : s.ownBuild = none ↔ s.build = none ∧ s.dockerfile = none := by
  unfold ownBuild
  cases s.build <;> cases s.dockerfile <;> simp

theorem context_ownBuild : s.ownBuild.bind Build.context = s.build := by
  unfold ownBuild
  cases s.build <;> cases s.dockerfile <;> rfl

theorem dockerfile_ownBuild : s.ownBuild.bind Build.dockerfile = s.dockerfile := by
  unfold ownBuild
  cases s.build <;> cases s.dockerfile <;> rfl

theorem arg?_ownBuild (name : String) :
    (s.ownBuild.bind fun b => b.args.get? name) = none := by
  unfold ownBuild
  cases s.build <;> cases s.dockerfile <;> rfl

theorem ownLogging_eq_none_iff :
    s.ownLogging = none ↔ s.logDriver = none ∧ s.logOpt = .empty := by
  rw [← Table.isEmpty_iff]
  unfold ownLogging
  cases s.logDriver <;> cases s.logOpt.isEmpty <;> simp

theorem driver_ownLogging : s.ownLogging.bind Logging.driver = s.logDriver := by
  unfold ownLogging
  cases s.logDriver <;> cases s.logOpt.isEmpty <;> rfl

theorem option?_ownLogging (name : String) :
    (s.ownLogging.bind fun l => l.options.get? name) = s.logOpt.get? name := by
  cases h : s.ownLogging with
  | none => simp [(s.ownLogging_eq_none_iff.1 h).2]
  | some l =>
    unfold ownLogging at h
    split at h <;> cases h
    rfl

/-- Widening lays what the legacy fields give over the shared build settings. -/
theorem over_widenBuild (build : Option Build) :
    OverOption Build.Over build s.ownBuild (s.widenBuild build) := by
  unfold widenBuild ownBuild
  split
  · cases build with
    | none => simpa [Build.empty] using OverOption.alone _
    | some b => exact .both ⟨rfl, rfl, fun name => (Option.none_or).symm⟩
  · exact .missing build

/-- Widening lays what the legacy fields give over the shared logging settings. -/
theorem over_widenLogging (logging : Option Logging) :
    OverOption Logging.Over logging s.ownLogging (s.widenLogging logging) := by
  have hinsert := fun t : Table String => t.get?_insertAll s.logOpt.sorted.distinct
  unfold widenLogging ownLogging
  split
  · cases logging with
    | none =>
      have hoptions : Table.empty.insertAll s.logOpt.entries = s.logOpt :=
        Table.ext_get? fun name => by rw [hinsert, Table.get?_empty, Option.or_none]; rfl
      simpa [Logging.empty, hoptions] using OverOption.alone _
    | some l => exact .both ⟨rfl, hinsert l.options⟩
  · exact .missing logging

/-! ### Both orders of precedence -/

/-- What becomes of the build, logging and network settings of `x` when a legacy service is laid
over them: legacy fields count first, then the later spelling in the same service, then `x`. -/
structure Overrides (x c : ServiceConfig) : Prop where
  build : c.build = none ↔ x.build = none ∧ s.build = none ∧ s.dockerfile = none
  context : c.buildContext = s.build.or x.buildContext
  dockerfile : c.dockerfile = s.dockerfile.or x.dockerfile
  args : ∀ name, c.buildArg? name = x.buildArg? name
  logging : c.logging = none ↔
    x.logging = none ∧ s.shared.logging = none ∧ s.logDriver = none ∧ s.logOpt = .empty
  driver : c.logDriver = (s.logDriver.or s.shared.logDriver).or x.logDriver
  options : ∀ name, c.logOption? name =
    ((s.logOpt.get? name).or (s.shared.logOption? name)).or (x.logOption? name)
  networkMode : c.networkMode = (s.net.or s.shared.networkMode).or x.networkMode

variable {s} {x c : ServiceConfig} {lookup : Option ResourceLookup} {file : Path} {name : String}

theorem overrides_of_mergeOnto (hbuild : s.shared.build = none)
    (h : mergeOnto x lookup file name s.widen.toRaw = .ok c) : s.Overrides x c := by
  -- Both layers are of one kind: the legacy fields over the shared ones, and these over `x`.
  have hownBuild := s.over_widenBuild none
  have hxBuild : OverOption Build.Over x.build (s.widenBuild none) c.build :=
    hbuild ▸ over_build (over_mergeOnto h (f := .build) (by decide))
  have hownLogging := s.over_widenLogging s.shared.logging
  have hxLogging : OverOption Logging.Over x.logging (s.widenLogging s.shared.logging) c.logging :=
    over_logging (over_mergeOnto h (f := .logging) (by decide))
  have hnetworkMode : c.networkMode = (s.net.or s.shared.networkMode).or x.networkMode :=
    eq_or_of_over_text isScalar_text (over_mergeOnto h (f := .networkMode) (by decide))
  have hviewBuild (get : Build → Option String)
      (hget : ∀ {a b c}, Build.Over a b c → get c = (get b).or (get a)) :
      c.build.bind get = (s.ownBuild.bind get).or (x.build.bind get) := by
    rw [hxBuild.bind_eq get hget, hownBuild.bind_eq get hget, Option.bind_none, Option.or_none]
  have hviewLogging (get : Logging → Option String)
      (hget : ∀ {a b c}, Logging.Over a b c → get c = (get b).or (get a)) :
      c.logging.bind get =
        ((s.ownLogging.bind get).or (s.shared.logging.bind get)).or (x.logging.bind get) := by
    rw [hxLogging.bind_eq get hget, hownLogging.bind_eq get hget]
  constructor
  · rw [hxBuild.eq_none_iff, hownBuild.eq_none_iff, s.ownBuild_eq_none_iff]
    simp
  · have hview := hviewBuild Build.context fun h => h.1
    rwa [s.context_ownBuild] at hview
  · have hview := hviewBuild Build.dockerfile fun h => h.2.1
    rwa [s.dockerfile_ownBuild] at hview
  · intro name
    have hview := hviewBuild (fun b => b.args.get? name) fun h => h.2.2 name
    rwa [s.arg?_ownBuild, Option.none_or] at hview
  · rw [hxLogging.eq_none_iff, hownLogging.eq_none_iff, s.ownLogging_eq_none_iff]
  · have hview := hviewLogging Logging.driver fun h => h.1
    rwa [s.driver_ownLogging] at hview
  · intro name
    have hview := hviewLogging (fun l => l.options.get? name) fun h => h.2 name
    rwa [s.option?_ownLogging] at hview
  · exact hnetworkMode

end LegacyService

/-- **A legacy service overrides what is stored.** Where a manifest of version 1 is merged, each
service in it is typed, and its build, logging and network settings are laid over those of the
stored service of its name. -/
theorem mergeServices_legacy_overrides {existing : Services} {lookup : Option ResourceLookup}
    {file : Path} {m : Manifest} {services : Entries ServiceConfig} {name : String}
    {fields : RawService} {x : ServiceConfig} (hsorted : Sorted fields)
    (hx : existing.get? name = some x) (hfields : get? name m.services = some fields)
    (h : mergeServices existing lookup file .v1 m = .ok services) :
    ∃ s c, LegacyService.read fields = .ok s ∧ s.GivenBy fields ∧ get? name services = some c ∧
      s.Overrides x c := by
  rcases Entries.get?_traverse h name with ⟨habsent, -⟩ | ⟨fields', c, hfields', hmerge, hc⟩
  · rw [hfields] at habsent
    cases habsent
  · rw [hfields] at hfields'
    cases hfields'
    obtain ⟨raw, hwiden, hmerge⟩ := Outcome.bind_eq_ok_iff.1 hmerge
    obtain ⟨s, hs, rfl⟩ := Outcome.map_eq_ok_iff.1 hwiden
    have hread : LegacyService.read fields = .ok s := Outcome.mapError_eq_ok_iff.1 hs
    rw [mergeService_eq_mergeOnto _ _ _ _ s.widen.canonical_toRaw.sorted, hx,
      Option.getD_some] at hmerge
    exact ⟨s, c, hread, LegacyService.givenBy_of_read hsorted hread, hc,
      LegacyService.overrides_of_mergeOnto (LegacyService.build_of_read hread) hmerge⟩

/-- A service with build, logging and network settings. -/
def storedWeb : ServiceConfig :=
  ((ServiceConfig.empty.set .build (some ⟨some "app", none, .ofList [("A", "1")]⟩)).set
    .logging (some ⟨some "json-file", .ofList [("size", "9"), ("tag", "web")]⟩)).set
    .networkMode (some "bridge")

/-- A legacy body that changes some of them, in both spellings. -/
def legacyWeb : RawService :=
  [("dockerfile", .string "Dockerfile.dev"), ("log_opt", .mapping [("tag", .string "dev")]),
   ("logging", .mapping [("driver", .string "syslog")]), ("net", .string "host"),
   ("network_mode", .string "none")]

/-- What becomes of the service. -/
def overriddenWeb : ServiceConfig :=
  ((ServiceConfig.empty.set .build
      (some ⟨some "app", some "Dockerfile.dev", .ofList [("A", "1")]⟩)).set
    .logging (some ⟨some "syslog", .ofList [("size", "9"), ("tag", "dev")]⟩)).set
    .networkMode (some "host")

theorem overrides_of_storedWeb :
    mergeServices (.ofList [("web", storedWeb)]) none "two.yml" .v1
        ⟨"", [("web", legacyWeb)], [], []⟩ = .ok [("web", overriddenWeb)] ∧
      ∃ s c, LegacyService.read legacyWeb = .ok s ∧ s.GivenBy legacyWeb ∧
        get? "web" [("web", overriddenWeb)] = some c ∧ s.Overrides storedWeb c := by
  have hmerge : mergeServices (.ofList [("web", storedWeb)]) none "two.yml" .v1
      ⟨"", [("web", legacyWeb)], [], []⟩ = .ok [("web", overriddenWeb)] := by decide +kernel
  have hsorted : Sorted legacyWeb := by
    rw [Entries.sorted_iff_names]
    decide +kernel
  exact ⟨hmerge, mergeServices_legacy_overrides hsorted rfl rfl hmerge⟩

end ComposeMerge
