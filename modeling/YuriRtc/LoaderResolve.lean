import YuriRtc.LoaderManifest
import YuriRtc.Steps
/-!
# LoaderResolve — finding a loader that may run

`resolveLoader` of `deploy/npm/src/integrity-loader.mjs` as a machine: a run goes from one `await` to the next, and what it
waited for (a mirror's answer, a digest, a verification) is the event.  Runs share the store of the highest version; between
the last check against it, the write and the return no other run has a turn.
-/
namespace YuriRtc

abbrev VersionItem := Option (List Char)

def readHighestVersion (item : VersionItem) : Option (List Char) := item.filter fun value => (parseSemVer value).isSome

def isReplay (version : List Char) (item : VersionItem) : Bool :=
  match readHighestVersion item with
  | some highest => compareSemVer version highest == some .lt
  | none => false

/-- `persistHighestVersion`; `writes` says whether the store takes the item. -/
def persistHighestVersion (writes : Bool) (item : VersionItem) (version : List Char) : VersionItem :=
  match readHighestVersion item with
  | some current =>
    if compareSemVer version current = some .gt then if writes then some version else item else item
  | none => if writes then some version else item

inductive ResolutionCode where
  | integrityFailure
  | cdnUnavailable
deriving DecidableEq, Repr

inductive ResolutionReason where
  | manifestUnavailable
  | envelopeInvalid
  | verificationError
  | cryptoUnavailable
  | manifestReplay
  | signatureInvalid
  | loaderHash
deriving DecidableEq, Repr

structure ResolutionError where
  code : ResolutionCode
  descriptor : Option Descriptor := none
  bytes : Option Bytes := none
  reason : Option ResolutionReason := none
  manifestFingerprint : Option (List Char) := none
deriving DecidableEq, Repr

structure ManifestLocals where
  sawManifest : Bool := false
  untrustedDescriptor : Option Descriptor := none
  replayDescriptor : Option Descriptor := none
  manifestFailure : ResolutionReason := .manifestUnavailable
  manifestFingerprint : Option (List Char) := none
deriving DecidableEq, Repr

inductive ResolveStage where
  | fetchManifest (rest : List (List Char))
  | fingerprint (rest : List (List Char)) (bytes : Bytes)
  | verify (rest : List (List Char)) (decoded : Decoded)
  | fetchLoader (descriptor : Descriptor) (url : List Char) (rest : List (List Char)) (candidate : Option Bytes)
  | hashLoader (descriptor : Descriptor) (url : List Char) (rest : List (List Char)) (candidate : Option Bytes) (bytes : Bytes)
  | downloaded (descriptor : Descriptor) (found : Option (List Char)) (bytes : Option Bytes)
  | returned (descriptor : Descriptor) (bytes : Bytes) (url : List Char)
  | threw (error : ResolutionError)
deriving DecidableEq, Repr

structure ResolveRun where
  publicKeySpki : List Char
  locals : ManifestLocals := {}
  stage : ResolveStage
deriving DecidableEq, Repr

def ResolveRun.fail (run : ResolveRun) (error : ResolutionError) : ResolveRun := { run with stage := .threw error }

def ResolveRun.nextManifest (run : ResolveRun) (rest : List (List Char)) : ResolveRun :=
  match rest with
  | _ :: rest => { run with stage := .fetchManifest rest }
  | [] =>
    if run.locals.sawManifest then
      run.fail {
        code := .integrityFailure
        descriptor := run.locals.replayDescriptor.or run.locals.untrustedDescriptor
        reason := some (if run.locals.replayDescriptor.isSome then .manifestReplay else run.locals.manifestFailure)
        manifestFingerprint := run.locals.manifestFingerprint }
    else run.fail { code := .cdnUnavailable }

/-- `continue`, with the reason kept. -/
def ResolveRun.skipManifest (run : ResolveRun) (reason : ResolutionReason) (rest : List (List Char)) : ResolveRun :=
  { run with locals := { run.locals with manifestFailure := reason } }.nextManifest rest

/-- The next mirror of `downloadFirst`, or its end. -/
def ResolveRun.nextLoader (run : ResolveRun) (descriptor : Descriptor) (rest : List (List Char))
    (candidate : Option Bytes) : ResolveRun :=
  match rest with
  | url :: rest => { run with stage := .fetchLoader descriptor url rest candidate }
  | [] => { run with stage := .downloaded descriptor none candidate }

def ResolveRun.start (publicKeySpki : List Char) (pointerUrls : List (List Char)) : ResolveRun :=
  ResolveRun.nextManifest { publicKeySpki := publicKeySpki, stage := .fetchManifest [] } pointerUrls

/-- How an `await` ends. -/
inductive AwaitOutcome where
  | fetched (bytes : Bytes)
  | fetchFailed
  | digested
  | digestFailed
  | verified
  | verifyFailed (hasSubtle : Bool)
  | resumed (writes : Bool)
deriving DecidableEq, Repr

section Machine
variable (platform : Platform)

def ResolveRun.readManifest (run : ResolveRun) (rest : List (List Char)) (bytes : Bytes)
    (manifestFingerprint : Option (List Char)) : ResolveRun :=
  let run := { run with locals := { run.locals with manifestFingerprint := manifestFingerprint } }
  match decodeEnvelope platform (platform.decodeText bytes) with
  | .error _ => run.skipManifest .envelopeInvalid rest
  | .ok decoded =>
    { run with
      locals := { run.locals with untrustedDescriptor := run.locals.untrustedDescriptor.or (some decoded.descriptor) }
      stage := .verify rest decoded }

/-- One step of a run: from the end of an `await` to the next one. -/
def ResolveRun.step (item : VersionItem) (run : ResolveRun) (outcome : AwaitOutcome) : Option (VersionItem × ResolveRun) :=
  match run.stage, outcome with
  | .fetchManifest rest, .fetched bytes =>
    some (item, { run with locals := { run.locals with sawManifest := true }, stage := .fingerprint rest bytes })
  | .fetchManifest rest, .fetchFailed => some (item, run.nextManifest rest)
  | .fingerprint rest bytes, .digested => some (item, run.readManifest platform rest bytes (some (sha256Text platform bytes)))
  | .fingerprint rest bytes, .digestFailed => some (item, run.readManifest platform rest bytes none)
  | .verify rest decoded, .verified =>
    if platform.verify run.publicKeySpki decoded.signature decoded.payloadBytes then
      if isReplay decoded.descriptor.version item then
        let replayDescriptor := run.locals.replayDescriptor.or (some decoded.descriptor)
        let run := { run with locals := { run.locals with replayDescriptor := replayDescriptor } }
        some (item, run.skipManifest .manifestReplay rest)
      else some (item, run.nextLoader decoded.descriptor decoded.descriptor.urls none)
    else some (item, run.skipManifest .signatureInvalid rest)
  | .verify rest _, .verifyFailed hasSubtle =>
    some (item, run.skipManifest (if hasSubtle then .verificationError else .cryptoUnavailable) rest)
  | .fetchLoader descriptor url rest candidate, .fetched bytes =>
    some (item, { run with stage := .hashLoader descriptor url rest (candidate.or (some bytes)) bytes })
  | .fetchLoader descriptor _ rest candidate, .fetchFailed => some (item, run.nextLoader descriptor rest candidate)
  | .hashLoader descriptor url rest candidate bytes, .digested =>
    if sha256Text platform bytes = descriptor.sha256 then
      some (item, { run with stage := .downloaded descriptor (some url) (some bytes) })
    else some (item, run.nextLoader descriptor rest candidate)
  | .hashLoader descriptor _ rest candidate _, .digestFailed => some (item, run.nextLoader descriptor rest candidate)
  | .downloaded descriptor (some url) (some bytes), .resumed writes =>
    if isReplay descriptor.version item then
      some (item, run.fail { code := .integrityFailure, descriptor := some descriptor, reason := some .manifestReplay })
    else
      some (persistHighestVersion writes item descriptor.version, { run with stage := .returned descriptor bytes url })
  | .downloaded descriptor _ (some bytes), .resumed _ =>
    some (item, run.fail {
      code := .integrityFailure, descriptor := some descriptor, bytes := some bytes, reason := some .loaderHash })
  | .downloaded descriptor _ none, .resumed _ =>
    some (item, run.fail { code := .cdnUnavailable, descriptor := some descriptor })
  | _, _ => none

structure Resolver where
  item : VersionItem
  runs : Nat → ResolveRun

structure ResolveEvent where
  run : Nat
  outcome : AwaitOutcome
deriving DecidableEq, Repr

def Resolver.step (resolver : Resolver) (event : ResolveEvent) : Option Resolver :=
  match (resolver.runs event.run).step platform resolver.item event.outcome with
  | some (item, next) => some ⟨item, fun i => if i = event.run then next else resolver.runs i⟩
  | none => none

end Machine

/-! ### The store -/

def highestVersion (item : VersionItem) : Option SemVer := item.bind parseSemVer

theorem readHighestVersion_of_some {item : VersionItem} {highest : SemVer} (h : highestVersion item = some highest) :
    ∃ text, item = some text ∧ parseSemVer text = some highest ∧ readHighestVersion item = some text := by
  obtain ⟨text, rfl, hparse⟩ := Option.bind_eq_some_iff.1 h
  exact ⟨text, rfl, hparse, by simp [readHighestVersion, hparse]⟩

theorem compareSemVer_compares {left right : List Char} {one two : SemVer} (hone : parseSemVer left = some one)
    (htwo : parseSemVer right = some two) :
    ∃ o : Ordering, compareSemVer left right = some o ∧ o.Compares one.precedence two.precedence :=
  ⟨one.compareTo two, by simp only [compareSemVer, hone, htwo],
    SemVer.compareTo_compares (parseSemVer_wellFormed hone) (parseSemVer_wellFormed htwo)⟩

variable {parsed highest : SemVer}

theorem le_of_not_replay {version : List Char} {item : VersionItem}
    (hparse : parseSemVer version = some parsed) (hitem : highestVersion item = some highest)
    (h : isReplay version item = false) : highest.precedence ≤ parsed.precedence := by
  obtain ⟨text, -, htext, hread⟩ := readHighestVersion_of_some hitem
  obtain ⟨o, hcompare, ho⟩ := compareSemVer_compares hparse htext
  rw [isReplay, hread] at h
  simp only [hcompare, beq_eq_false_iff_ne, ne_eq, Option.some.injEq] at h
  cases o with
  | lt => exact absurd rfl h
  | eq => exact le_of_eq (Eq.symm ho)
  | gt => exact le_of_lt ho

theorem persist_mono {writes : Bool} {version : List Char} {item : VersionItem}
    (hparse : parseSemVer version = some parsed) (hitem : highestVersion item = some highest) :
    ∃ next, highestVersion (persistHighestVersion writes item version) = some next ∧
      highest.precedence ≤ next.precedence := by
  obtain ⟨text, -, htext, hread⟩ := readHighestVersion_of_some hitem
  obtain ⟨o, hcompare, ho⟩ := compareSemVer_compares hparse htext
  simp only [persistHighestVersion, hread, hcompare, Option.some.injEq]
  by_cases hgt : o = .gt
  · subst hgt
    cases writes with
    | true => exact ⟨parsed, hparse, le_of_lt ho⟩
    | false => exact ⟨highest, by simpa using hitem, le_refl _⟩
  · simp_all

theorem le_of_persist {writes : Bool} {version : List Char} {item : VersionItem}
    (hparse : parseSemVer version = some parsed) (h : isReplay version item = false)
    (hitem : highestVersion (persistHighestVersion writes item version) = some highest) :
    highest.precedence ≤ parsed.precedence := by
  have hcases : persistHighestVersion writes item version = item ∨
      persistHighestVersion writes item version = some version := by grind [persistHighestVersion]
  rcases hcases with heq | heq
  · rw [heq] at hitem
    exact le_of_not_replay hparse hitem h
  rw [heq] at hitem
  have : parseSemVer version = some highest := hitem
  simp_all

/-! ### One run -/

section Sound
variable {platform : Platform} {run next : ResolveRun} {item item' : VersionItem} {outcome : AwaitOutcome}

def ResolveRun.Sound (platform : Platform) (run : ResolveRun) : Prop :=
  match run.stage with
  | .verify _ decoded =>
    validatePayload (platform.parseJson (platform.decodeText decoded.payloadBytes)) = .ok decoded.descriptor
  | .fetchLoader descriptor _ _ _ => SignedDescriptor platform run.publicKeySpki descriptor
  | .hashLoader descriptor _ _ _ _ => SignedDescriptor platform run.publicKeySpki descriptor
  | .downloaded descriptor found bytes => SignedDescriptor platform run.publicKeySpki descriptor ∧
      ∀ url text, found = some url → bytes = some text → sha256Text platform text = descriptor.sha256
  | .returned descriptor bytes _ => SignedDescriptor platform run.publicKeySpki descriptor ∧
      sha256Text platform bytes = descriptor.sha256
  | _ => True

structure ResolveRun.GoesOn (platform : Platform) (run next : ResolveRun) : Prop where
  key : next.publicKeySpki = run.publicKeySpki
  sound : next.Sound platform
  open_ : ∀ descriptor bytes url, next.stage ≠ .returned descriptor bytes url

variable (platform)

theorem goesOn_fail (run : ResolveRun) (error : ResolutionError) :
    ResolveRun.GoesOn platform run (run.fail error) :=
  ⟨rfl, trivial, nofun⟩

theorem goesOn_nextManifest (run : ResolveRun) (rest : List (List Char)) :
    ResolveRun.GoesOn platform run (run.nextManifest rest) := by
  cases rest with
  | cons url rest => exact ⟨rfl, trivial, nofun⟩
  | nil =>
    rw [ResolveRun.nextManifest]
    split
    · exact goesOn_fail platform run _
    · exact goesOn_fail platform run _

theorem goesOn_skipManifest (run : ResolveRun) (reason : ResolutionReason) (rest : List (List Char)) :
    ResolveRun.GoesOn platform run (run.skipManifest reason rest) :=
  have h := goesOn_nextManifest platform { run with locals := { run.locals with manifestFailure := reason } } rest
  { h with }

theorem goesOn_readManifest (run : ResolveRun) (rest : List (List Char)) (bytes : Bytes)
    (fingerprint : Option (List Char)) :
    ResolveRun.GoesOn platform run (run.readManifest platform rest bytes fingerprint) := by
  unfold ResolveRun.readManifest
  cases hdecode : decodeEnvelope platform (platform.decodeText bytes) with
  | error text =>
    have h := goesOn_skipManifest platform
      { run with locals := { run.locals with manifestFingerprint := fingerprint } } .envelopeInvalid rest
    exact { h with }
  | ok decoded => exact ⟨rfl, decodeEnvelope_payload hdecode, nofun⟩

variable {platform}

theorem goesOn_nextLoader {run : ResolveRun} {descriptor : Descriptor}
    (h : SignedDescriptor platform run.publicKeySpki descriptor) (rest : List (List Char)) (candidate : Option Bytes) :
    ResolveRun.GoesOn platform run (run.nextLoader descriptor rest candidate) := by
  cases rest with
  | cons url rest => exact ⟨rfl, h, nofun⟩
  | nil => exact ⟨rfl, ⟨h, nofun⟩, nofun⟩

structure ResolveRun.Returns (platform : Platform) (run next : ResolveRun) (item item' : VersionItem)
    (descriptor : Descriptor) (bytes : Bytes) (url : List Char) : Prop where
  key : next.publicKeySpki = run.publicKeySpki
  stage : next.stage = .returned descriptor bytes url
  signed : SignedDescriptor platform run.publicKeySpki descriptor
  hash : sha256Text platform bytes = descriptor.sha256
  fresh : isReplay descriptor.version item = false
  item : ∃ writes, item' = persistHighestVersion writes item descriptor.version

theorem ResolveRun.step_cases (hsound : run.Sound platform) (h : run.step platform item outcome = some (item', next)) :
    (item' = item ∧ ResolveRun.GoesOn platform run next) ∨
      ∃ descriptor bytes url, ResolveRun.Returns platform run next item item' descriptor bytes url := by
  unfold ResolveRun.step at h
  unfold ResolveRun.Sound at hsound
  split at h
  · cases h
    exact .inl ⟨rfl, rfl, trivial, nofun⟩
  · cases h
    exact .inl ⟨rfl, goesOn_nextManifest platform run _⟩
  · cases h
    exact .inl ⟨rfl, goesOn_readManifest platform run _ _ _⟩
  · cases h
    exact .inl ⟨rfl, goesOn_readManifest platform run _ _ _⟩
  · next rest decoded hstage =>
    simp only [hstage] at hsound
    split at h
    · next hverified =>
      split at h
      · cases h
        have hskip := goesOn_skipManifest platform { run with locals := { run.locals with
          replayDescriptor := run.locals.replayDescriptor.or (some decoded.descriptor) } } .manifestReplay rest
        exact .inl ⟨rfl, hskip.key, hskip.sound, hskip.open_⟩
      · cases h
        exact .inl ⟨rfl, goesOn_nextLoader ⟨_, _, hverified, hsound⟩ _ _⟩
    · cases h
      exact .inl ⟨rfl, goesOn_skipManifest platform run _ _⟩
  · cases h
    exact .inl ⟨rfl, goesOn_skipManifest platform run _ _⟩
  · next hstage =>
    simp only [hstage] at hsound
    cases h
    exact .inl ⟨rfl, rfl, hsound, nofun⟩
  · next hstage =>
    simp only [hstage] at hsound
    cases h
    exact .inl ⟨rfl, goesOn_nextLoader hsound _ _⟩
  · next hstage =>
    simp only [hstage] at hsound
    split at h
    · next hhash =>
      cases h
      refine .inl ⟨rfl, rfl, ⟨hsound, fun _ text _ htext => ?_⟩, nofun⟩
      cases htext
      exact hhash
    · cases h
      exact .inl ⟨rfl, goesOn_nextLoader hsound _ _⟩
  · next hstage =>
    simp only [hstage] at hsound
    cases h
    exact .inl ⟨rfl, goesOn_nextLoader hsound _ _⟩
  · next hstage =>
    simp only [hstage] at hsound
    split at h
    · cases h
      exact .inl ⟨rfl, goesOn_fail platform run _⟩
    rename_i hfresh
    cases h
    exact .inr ⟨_, _, _, rfl, rfl, hsound.1, hsound.2 _ _ rfl rfl, by simpa using hfresh, _, rfl⟩
  · cases h
    exact .inl ⟨rfl, goesOn_fail platform run _⟩
  · cases h
    exact .inl ⟨rfl, goesOn_fail platform run _⟩
  · cases h

end Sound

/-! ### All runs -/

/-- Runs of the given keys and manifest mirrors, at their first `await`. -/
def Resolver.start (item : VersionItem) (keys : Nat → List Char) (pointerUrls : Nat → List (List Char)) : Resolver :=
  ⟨item, fun i => ResolveRun.start (keys i) (pointerUrls i)⟩

def Resolver.Sound (platform : Platform) (keys : Nat → List Char) (resolver : Resolver) : Prop :=
  ∀ i, (resolver.runs i).Sound platform ∧ (resolver.runs i).publicKeySpki = keys i

theorem Resolver.sound_start (platform : Platform) (item : VersionItem) (keys : Nat → List Char)
    (pointerUrls : Nat → List (List Char)) : (Resolver.start item keys pointerUrls).Sound platform keys := by
  intro i
  have h := goesOn_nextManifest platform { publicKeySpki := keys i, stage := .fetchManifest [] } (pointerUrls i)
  exact ⟨h.sound, h.key⟩

def StoreKept (before after : VersionItem) : Prop :=
  ∀ highest, highestVersion before = some highest →
    ∃ next, highestVersion after = some next ∧ highest.precedence ≤ next.precedence

theorem StoreKept.refl (item : VersionItem) : StoreKept item item := fun highest h => ⟨highest, h, le_refl _⟩

theorem StoreKept.trans {first second third : VersionItem} (h : StoreKept first second) (h' : StoreKept second third) :
    StoreKept first third := by
  intro highest hfirst
  obtain ⟨middle, hsecond, hle⟩ := h highest hfirst
  obtain ⟨last, hthird, hle'⟩ := h' middle hsecond
  exact ⟨last, hthird, le_trans hle hle'⟩

theorem SignedDescriptor.version {platform : Platform} {key : List Char} {descriptor : Descriptor}
    (h : SignedDescriptor platform key descriptor) : ∃ version, parseSemVer descriptor.version = some version := by
  obtain ⟨payload, signature, -, hvalid⟩ := h
  exact validatePayload_version hvalid

section System
variable {platform : Platform} {keys : Nat → List Char} {s s' : Resolver} {event : ResolveEvent}

/-- **A turn of one run** leaves every run sound and the store's version no lower, and where the run returns, it returns
what was signed and is not below the store's version. -/
theorem Resolver.step_sound (hsound : s.Sound platform keys) (h : s.step platform event = some s') :
    s'.Sound platform keys ∧ StoreKept s.item s'.item ∧
      ∀ descriptor bytes url, (s'.runs event.run).stage = .returned descriptor bytes url →
        SignedDescriptor platform (keys event.run) descriptor ∧ sha256Text platform bytes = descriptor.sha256 ∧
          ∃ version, parseSemVer descriptor.version = some version ∧
            ∀ highest, highestVersion s'.item = some highest → highest.precedence ≤ version.precedence := by
  obtain ⟨hrun, hkey⟩ := hsound event.run
  unfold Resolver.step at h
  split at h
  · next item next hstep =>
    cases h
    have hothers (hnext : next.Sound platform) (hnextKey : next.publicKeySpki = keys event.run) :
        (Resolver.mk item fun i => if i = event.run then next else s.runs i).Sound platform keys := by
      intro i
      by_cases hi : i = event.run
      · simp_all
      · simp only [hi, if_false]
        exact hsound i
    rcases ResolveRun.step_cases hrun hstep with ⟨rfl, hgoes⟩ | ⟨descriptor, bytes, url, hreturns⟩
    · refine ⟨hothers hgoes.sound (hgoes.key.trans hkey), .refl _, fun descriptor bytes url hstage => ?_⟩
      simp only [if_true] at hstage
      exact absurd hstage (hgoes.open_ descriptor bytes url)
    have hsigned := hreturns.signed
    rw [hkey] at hsigned
    obtain ⟨version, hversion⟩ := hsigned.version
    obtain ⟨writes, hitem⟩ := hreturns.item
    have hnextKey := hreturns.key.trans hkey
    have hnext : next.Sound platform := by
      unfold ResolveRun.Sound
      simp only [hreturns.stage, hnextKey]
      exact ⟨hsigned, hreturns.hash⟩
    refine ⟨hothers hnext hnextKey, fun highest hhighest => ?_, fun other otherBytes otherUrl hstage => ?_⟩
    · rw [hitem]
      exact persist_mono hversion hhighest
    simp only [if_true, hreturns.stage] at hstage
    cases hstage
    refine ⟨hsigned, hreturns.hash, version, hversion, fun highest hhighest => ?_⟩
    rw [hitem] at hhighest
    exact le_of_persist hversion hreturns.fresh hhighest
  · cases h

theorem Resolver.run_sound (events : List ResolveEvent) {s t : Resolver} (hsound : s.Sound platform keys)
    (h : Steps.run (Resolver.step platform) s events = some t) : t.Sound platform keys ∧ StoreKept s.item t.item :=
  Steps.run_inv (Resolver.step platform) (fun resolver => resolver.Sound platform keys ∧ StoreKept s.item resolver.item)
    (fun _ _ _ hinv hstep =>
      have hnext := Resolver.step_sound hinv.1 hstep
      ⟨hnext.1, hinv.2.trans hnext.2.1⟩)
    events s t ⟨hsound, .refl _⟩ h

end System

/-- **A resolved loader is signed, intact and no step back.**  In every interleaving of runs, with mirrors that answer
anything, a run that returns gives bytes with the digest that a payload signed by its key names, of a version not below the
store's at that moment; and between any two moments the store's version does not go down. -/
theorem resolved_loader_trusted (platform : Platform) (keys : Nat → List Char) (pointerUrls : Nat → List (List Char))
    (item : VersionItem) (before after : List ResolveEvent) (event : ResolveEvent) (s s' t : Resolver)
    (hbefore : Steps.run (Resolver.step platform) (Resolver.start item keys pointerUrls) before = some s)
    (hstep : Resolver.step platform s event = some s')
    (hafter : Steps.run (Resolver.step platform) s' after = some t) :
    (∀ descriptor bytes url, (s'.runs event.run).stage = .returned descriptor bytes url →
      SignedDescriptor platform (keys event.run) descriptor ∧ sha256Text platform bytes = descriptor.sha256 ∧
        ∃ version, parseSemVer descriptor.version = some version ∧
          ∀ highest, highestVersion s'.item = some highest → highest.precedence ≤ version.precedence) ∧
      StoreKept s.item t.item := by
  obtain ⟨hsound, -⟩ := Resolver.run_sound before (Resolver.sound_start platform item keys pointerUrls) hbefore
  obtain ⟨hsound', hkept, hreturned⟩ := Resolver.step_sound hsound hstep
  exact ⟨hreturned, hkept.trans (Resolver.run_sound after hsound' hafter).2⟩

def newLoader : Descriptor :=
  ⟨loaderPackage.toList, "1.2.0".toList, exactLoaderUrls "1.2.0".toList, List.replicate 31 'A' ++ 'B' :: List.replicate 11 'A'⟩

def checksum (bytes : Bytes) : UInt8 := bytes.foldl (· + ·) 0

/-- A platform that knows one envelope, `E`, with the payload `P`.  A digest is a checksum in 32 bytes, written in letters,
and the key `K` signs a payload by its checksum. -/
def plainPlatform : Platform where
  parseJson text :=
    if text = ['E'] then
      some (.object [("schema".toList, .number 1), ("payload".toList, .string "UA".toList),
        ("signature".toList, .object [("algorithm".toList, .string "ECDSA-P256-SHA256".toList),
          ("value".toList, .string (List.replicate 20 'A'))])])
    else if text = ['P'] then
      some (.object [("schema".toList, .number 1), ("loader".toList, .object [
        ("package".toList, .string newLoader.package), ("version".toList, .string newLoader.version),
        ("sha256".toList, .string newLoader.sha256), ("urls".toList, .array (newLoader.urls.map .string))])])
    else none
  decodeText bytes := bytes.map fun byte => Char.ofNat byte.toNat
  atob text := some (if text.length < 10 then [0x50] else List.replicate 63 0 ++ [0x50])
  btoa bytes := bytes.map (fun byte => Char.ofNat (65 + byte.toNat % 26)) ++ List.replicate 11 'A' ++ ['=']
  digest bytes := List.replicate 31 0 ++ [checksum bytes]
  verify key signature payload := key = ['K'] ∧ signature = List.replicate 63 0 ++ [checksum payload]

/-- Two runs at once: one finds a newer version than the store's, at the second mirror, and the other has another key. -/
theorem resolved_loader_trusted_newer :
    let keys : Nat → List Char := fun run => if run = 0 then ['K'] else ['L']
    let start := Resolver.start (some "1.1.0".toList) keys (fun _ => [[]])
    let waited : List ResolveEvent := [⟨0, .fetched [0x45]⟩, ⟨1, .fetched [0x45]⟩, ⟨0, .digested⟩, ⟨0, .verified⟩,
      ⟨0, .fetched [2]⟩, ⟨1, .digested⟩, ⟨0, .digested⟩, ⟨0, .fetched [1]⟩, ⟨1, .verified⟩, ⟨0, .digested⟩]
    (Steps.run (Resolver.step plainPlatform) start (waited ++ [⟨0, .resumed true⟩])).map
        (fun resolver => ((resolver.runs 0).stage, (resolver.runs 1).locals.manifestFailure, resolver.item)) =
      some (.returned newLoader [1] (newLoader.urls.getD 1 []), .signatureInvalid, some "1.2.0".toList) ∧
    SignedDescriptor plainPlatform ['K'] newLoader ∧ sha256Text plainPlatform [1] = newLoader.sha256 := by
  intro keys start waited
  have hall : (Steps.run (Resolver.step plainPlatform) start (waited ++ [⟨0, .resumed true⟩])).map
      (fun resolver => ((resolver.runs 0).stage, (resolver.runs 1).locals.manifestFailure, resolver.item)) =
      some (.returned newLoader [1] (newLoader.urls.getD 1 []), .signatureInvalid, some "1.2.0".toList) := by
    decide +kernel
  refine ⟨hall, ?_⟩
  obtain ⟨s', hs', hfinal⟩ := Option.map_eq_some_iff.1 hall
  rw [Steps.run_append] at hs'
  obtain ⟨s, hs, hlast⟩ := Option.bind_eq_some_iff.1 hs'
  obtain ⟨s'', hstep, hnil⟩ := Steps.run_cons_some _ hlast
  cases hnil
  obtain ⟨hsigned, hdigest, -⟩ := (resolved_loader_trusted plainPlatform keys (fun _ => [[]]) (some "1.1.0".toList) waited []
    ⟨0, .resumed true⟩ s s' s' hs hstep rfl).1 _ _ _ (Prod.mk.inj hfinal).1
  exact ⟨hsigned, hdigest⟩

end YuriRtc
