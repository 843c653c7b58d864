/-
  EliteTelemetry.Updater.Verify — what the updater checks before it installs a binary (`run`
  up to the swap, and `verifySHA256`, of `cmd/elite-updater/main.go`).

  `run` takes the first of three names under which the release has an asset with a URL,
  downloads it, and compares its hash with the one `SHA256SUMS` has for the name. If the
  release has no such file it goes on without a comparison, unless a cosign signature is
  required. A line of the file counts for the name if its last word is the name, also where
  there is more than a hash before it.

  A binary that comes to the swap was compared with the hash that is listed for exactly its
  name if and only if the release has a `SHA256SUMS` with a URL, and the first line that
  counts for the name has the hash of one that lists it (`installed_verified_iff`). Without
  the file anything is installed (`unlisted_binary_installed`).
-/

import EliteTelemetry.Lib.Fallible
import EliteTelemetry.Lib.Files
import EliteTelemetry.Lib.GoText

namespace EliteTelemetry.Updater

open EliteTelemetry.Lib.Fallible
open EliteTelemetry.Lib.Files
open EliteTelemetry.Lib.GoText

/-! ## `SHA256SUMS` -/

def trimSpace (s : String) : String :=
  .ofList ((s.toList.dropWhile isSpace).reverse.dropWhile isSpace).reverse

def trimDotSlash (name : String) : String :=
  match name.toList with
  | '.' :: '/' :: rest => .ofList rest
  | _ => name

def words (line : String) : List String :=
  let line := trimSpace line
  if line = "" ∨ line.toList.head? = some '#' then [] else fields line

def sumLines (sums : String) : List (List String) := (split '\n' sums).map words

def entry (line : List String) : Option (String × String) :=
  match line with
  | hash :: w :: ws => some (hash, trimDotSlash ((w :: ws).getLast (List.cons_ne_nil w ws)))
  | _ => none

/-- The hash that is compared: that of the first line for the name, and "" without one. -/
def want (sums assetName : String) : String :=
  (((sumLines sums).filterMap entry).find? fun e => e.2 = assetName).elim "" Prod.fst

/-- The file lists this hash for exactly this name: a line of two words. -/
def Lists (sums assetName hash : String) : Prop :=
  ∃ name, [hash, name] ∈ sumLines sums ∧ trimDotSlash name = assetName

/-! ## The run -/

structure Asset where
  name : String
  browserDownloadURL : String
  deriving DecidableEq, Repr

structure Release where
  tagName : String
  assets : List Asset
  deriving DecidableEq, Repr

structure Config where
  autoApply : Bool
  requireCosign : Bool
  assetName : String
  deriving DecidableEq, Repr

inductive Download where
  | fail (err : String) (part : Option Bytes)
  | done (data : Bytes)
  deriving DecidableEq, Repr

/-- What the run meets. An error is none where the call succeeds. -/
structure Env where
  release : Except String Release
  currentVersion : String
  arch : String
  dryRun : Bool
  mkdirTemp : Option String
  binDownload : Download
  sumsDownload : Download
  sigDownload : Download
  readSums : Option String
  openBin : Option String
  hashBin : Option String
  cosign : Bool
  /-- `cosignVerify` where the signature is required; where it is not, it only warns. -/
  cosignVerify : Option String

abbrev Stop := Except (Option String)

def check : Option String → Stop Unit
  | none => pure ()
  | some err => .error (some err)

def downloadFile (d : Download) (dest : String) (fs : FS String) : Option String × FS String :=
  match d with
  | .fail err none => (some err, fs)
  | .fail err (some part) => (some err, Function.update fs dest (some part))
  | .done data => (none, Function.update fs dest (some data))

def chooseAsset (candidates : List String) (assets : List Asset) : Option Asset :=
  candidates.findSome? fun name =>
    if name = "" then none else (assets.find? (·.name = name)).filter (·.browserDownloadURL ≠ "")

def sumsURL (assets : List Asset) : String :=
  ((assets.find? (·.name = "SHA256SUMS")).map Asset.browserDownloadURL).getD ""

def select (cfg : Config) (env : Env) : Stop (Release × Asset) :=
  match env.release with
  | .error err => .error (some err)
  | .ok rel =>
    let cur := env.currentVersion
    if cur ≠ "" ∧ (cur = rel.tagName ∨ rel.tagName.toList.isPrefixOf cur.toList) then .error none
    else if !cfg.autoApply then .error none
    else
      match chooseAsset [cfg.assetName, "elite-agent.linux-" ++ env.arch, "elite-agent"] rel.assets with
      | none => .error (some ("no elite-agent asset in release " ++ rel.tagName))
      | some asset => do
        check env.mkdirTemp
        if env.dryRun then .error none else pure (rel, asset)

variable {env : Env} {fs : FS String}

section Run

-- What bytes are as text, the hash of a file in hexadecimal digits, and where a file of this
-- name is in the temporary directory.
variable (text sha256 : Bytes → String) (join : String → String)

def verifySHA256 (env : Env) (sumsPath assetName binPath : String) (fs : FS String) : Option String :=
  match env.readSums with
  | some err => some err
  | none =>
    let want := want (text ((fs sumsPath).getD [])) assetName
    if want = "" then some ("asset " ++ assetName ++ " not listed in SHA256SUMS")
    else
      match env.openBin, env.hashBin with
      | some err, _ => some err
      | none, some err => some err
      | none, none =>
        let got := sha256 ((fs binPath).getD [])
        if equalFold got want then none else some ("sha256 mismatch: got " ++ got ++ " want " ++ want)

def fetch (cfg : Config) (env : Env) (asset : Asset) (sumsURL : String) : Stop (FS String) :=
  let bin := downloadFile env.binDownload (join asset.name) fun _ => none
  match bin.1 with
  | some err => .error (some err)
  | none =>
    if sumsURL ≠ "" then
      let sums := downloadFile env.sumsDownload (join "SHA256SUMS") bin.2
      match sums.1 with
      | some err => .error (some ("SHA256SUMS: " ++ err))
      | none => do
        check (verifySHA256 text sha256 env (join "SHA256SUMS") asset.name (join asset.name) sums.2)
        pure sums.2
    else if cfg.requireCosign then .error (some "SHA256SUMS missing and require_cosign set")
    else pure bin.2

/-- The signature; where it is not required, what it shows is only reported. -/
def checkSignature (cfg : Config) (env : Env) (binPath : String) (fs : FS String) : Stop (FS String) :=
  if cfg.requireCosign then do
    check (env.cosignVerify.map ("cosign: " ++ ·))
    pure fs
  else if env.cosign then pure (downloadFile env.sigDownload (binPath ++ ".sig") fs).2
  else pure fs

structure Swap where
  release : Release
  assetName : String
  installed : Option Bytes

def run (cfg : Config) (env : Env) : Stop Swap := do
  let (rel, asset) ← select cfg env
  let fs ← fetch text sha256 join cfg env asset (sumsURL rel.assets)
  let fs ← checkSignature cfg env (join asset.name) fs
  pure ⟨rel, asset.name, fs (join asset.name)⟩

/-- The file that is installed was compared equal with the hash that the `SHA256SUMS` of the
    release lists for exactly its name. -/
def Verified (env : Env) (s : Swap) : Prop :=
  sumsURL s.release.assets ≠ "" ∧ ∃ data bin hash, env.sumsDownload = .done data ∧ s.installed = some bin ∧
    Lists (text data) s.assetName hash ∧ equalFold (sha256 bin) hash = true

/-- The first line that counts for the name has the hash of a line that lists it. -/
def FirstListed (sums assetName : String) : Prop :=
  ∃ hash, Lists sums assetName hash ∧ equalFold (want sums assetName) hash = true

variable {text sha256 join}

theorem equalFold_iff (s t : String) : equalFold s t = true ↔ s.toList.map Char.toLower = t.toList.map Char.toLower := by
  simp [equalFold]

theorem equalFold_right {s t u : String} (h : equalFold s t = true) : equalFold s u = true ↔ equalFold t u = true := by
  rw [equalFold_iff] at h
  rw [equalFold_iff, equalFold_iff, h]

theorem checkSignature_keeps {cfg : Config} {binPath : String} {fs' : FS String}
    (h : checkSignature cfg env binPath fs = .ok fs') : fs' binPath = fs binPath := by
  have hne : binPath ≠ binPath ++ ".sig" := fun he => by simpa using congrArg String.length he
  unfold checkSignature at h
  split at h
  · obtain ⟨_, -, h⟩ := bind_ok h
    cases h
    rfl
  · split at h
    · cases h
      unfold downloadFile
      split
      · rfl
      · exact Function.update_of_ne hne _ _
      · exact Function.update_of_ne hne _ _
    · cases h
      rfl

theorem downloadFile_done {d : Download} {dest : String} (h : (downloadFile d dest fs).1 = none) :
    ∃ data, d = .done data ∧ (downloadFile d dest fs).2 = Function.update fs dest (some data) := by
  cases d with
  | fail err part => cases part <;> cases h
  | done data => exact ⟨data, rfl, rfl⟩

theorem check_ok {err : Option String} {u : Unit} (h : check err = .ok u) : err = none := by
  cases err with
  | none => rfl
  | some err => cases h

theorem verifySHA256_none {sumsPath assetName binPath : String}
    (h : verifySHA256 text sha256 env sumsPath assetName binPath fs = none) :
    equalFold (sha256 ((fs binPath).getD [])) (want (text ((fs sumsPath).getD [])) assetName) = true := by
  unfold verifySHA256 at h
  split at h
  · cases h
  · simp only at h
    split at h
    · cases h
    · split at h
      · cases h
      · cases h
      · split at h
        · assumption
        · cases h

/-- What the downloads leave where the release has a `SHA256SUMS`. -/
theorem fetch_sums {cfg : Config} {asset : Asset} {url : String}
    (h : fetch text sha256 join cfg env asset url = .ok fs) (hurl : url ≠ "") :
    ∃ data bin, env.sumsDownload = .done data ∧ fs (join asset.name) = some bin ∧
      equalFold (sha256 bin) (want (text data) asset.name) = true := by
  unfold fetch at h
  simp only at h
  split at h
  · cases h
  · rename_i hbin
    obtain ⟨b, -, hfs⟩ := downloadFile_done hbin
    rw [if_pos hurl] at h
    split at h
    · cases h
    · rename_i hsums
      obtain ⟨data, hdata, hfs'⟩ := downloadFile_done hsums
      obtain ⟨_, hcheck, h⟩ := bind_ok h
      cases h
      have hverify := verifySHA256_none (check_ok hcheck)
      rw [hfs', hfs] at hverify ⊢
      rw [Function.update_self, Option.getD_some] at hverify
      -- The two files may be one, if the asset is the `SHA256SUMS` itself.
      obtain ⟨bin, hbin⟩ : ∃ bin, Function.update (Function.update (fun _ => none) (join asset.name) (some b))
          (join "SHA256SUMS") (some data) (join asset.name) = some bin := by
        by_cases hsame : join asset.name = join "SHA256SUMS"
        · exact ⟨data, by rw [hsame, Function.update_self]⟩
        · exact ⟨b, by rw [Function.update_of_ne hsame, Function.update_self]⟩
      rw [hbin, Option.getD_some] at hverify
      exact ⟨data, bin, hdata, hbin, hverify⟩

theorem run_swap {cfg : Config} {s : Swap} (h : run text sha256 join cfg env = .ok s) :
    ∃ asset fs, s.assetName = asset.name ∧ s.installed = fs (join asset.name) ∧
      fetch text sha256 join cfg env asset (sumsURL s.release.assets) = .ok fs := by
  obtain ⟨⟨rel, asset⟩, -, h⟩ := bind_ok h
  obtain ⟨fs, hfetch, h⟩ := bind_ok h
  obtain ⟨fs', hsig, h⟩ := bind_ok h
  cases h
  exact ⟨asset, fs, rfl, checkSignature_keeps hsig, hfetch⟩

/-- A binary that comes to the swap was compared with the hash listed for exactly its name
    if and only if the release has a `SHA256SUMS` with a URL, in which the first line that
    counts for the name has the hash of one that lists it. -/
theorem installed_verified_iff (text sha256 : Bytes → String) (join : String → String) (cfg : Config) (env : Env)
    (s : Swap) (h : run text sha256 join cfg env = .ok s) :
    Verified text sha256 env s ↔ sumsURL s.release.assets ≠ "" ∧
      ∀ data, env.sumsDownload = .done data → FirstListed (text data) s.assetName := by
  obtain ⟨asset, fs, hname, hinstalled, hfetch⟩ := run_swap h
  unfold Verified
  refine and_congr_right fun hurl => ?_
  obtain ⟨data, bin, hdata, hbin, hequal⟩ := fetch_sums hfetch hurl
  rw [← hinstalled] at hbin
  rw [← hname] at hequal
  constructor
  · rintro ⟨data', bin', hash, hdata', hbin', hlists, hhash⟩ data'' hdata''
    obtain rfl := Option.some.inj (hbin.symm.trans hbin')
    obtain rfl := Download.done.inj (hdata.symm.trans hdata')
    obtain rfl := Download.done.inj (hdata.symm.trans hdata'')
    exact ⟨hash, hlists, (equalFold_right hequal).mp hhash⟩
  · intro hfirst
    obtain ⟨hash, hlists, hhash⟩ := hfirst data hdata
    exact ⟨data, bin, hash, hdata, hbin, hlists, (equalFold_right hequal).mpr hhash⟩

end Run

def asciiText (bytes : Bytes) : String := .ofList (bytes.map fun b => Char.ofNat b.toNat)

def smooth (assets : List Asset) (sums : String) : Env :=
  { release := .ok ⟨"v2", assets⟩, currentVersion := "v1", arch := "amd64", dryRun := false, mkdirTemp := none,
    binDownload := .done [7], sumsDownload := .done (sums.toList.map fun c => .ofNat c.toNat),
    sigDownload := .fail "404 Not Found" none, readSums := none, openBin := none, hashBin := none,
    cosign := false, cosignVerify := none }

def agentAsset : Asset := ⟨"elite-agent", "dl/elite-agent"⟩

def sumsAsset : Asset := ⟨"SHA256SUMS", "dl/SHA256SUMS"⟩

theorem listed_binary_verified :
    run asciiText (fun _ => "ab") ("/tmp/" ++ ·) ⟨true, false, ""⟩ (smooth [agentAsset, sumsAsset] "AB  ./elite-agent") =
        .ok ⟨⟨"v2", [agentAsset, sumsAsset]⟩, "elite-agent", some [7]⟩ ∧
      Verified asciiText (fun _ => "ab") (smooth [agentAsset, sumsAsset] "AB  ./elite-agent")
        ⟨⟨"v2", [agentAsset, sumsAsset]⟩, "elite-agent", some [7]⟩ := by
  have hrun : run asciiText (fun _ => "ab") ("/tmp/" ++ ·) ⟨true, false, ""⟩
      (smooth [agentAsset, sumsAsset] "AB  ./elite-agent") =
        .ok ⟨⟨"v2", [agentAsset, sumsAsset]⟩, "elite-agent", some [7]⟩ := rfl
  refine ⟨hrun, (installed_verified_iff asciiText (fun _ => "ab") ("/tmp/" ++ ·) ⟨true, false, ""⟩ _ _ hrun).mpr
    ⟨by decide, fun data hdata => ?_⟩⟩
  obtain rfl := Download.done.inj hdata
  exact ⟨"AB", ⟨"./elite-agent", by decide +kernel, rfl⟩, by decide +kernel⟩

/-- A release without `SHA256SUMS` is installed unchecked, and one whose file has the hash of
    another file that ends in the same word is installed as well. -/
theorem unlisted_binary_installed :
    (run asciiText (fun _ => "ab") ("/tmp/" ++ ·) ⟨true, false, ""⟩ (smooth [agentAsset] "") =
        .ok ⟨⟨"v2", [agentAsset]⟩, "elite-agent", some [7]⟩ ∧
      ¬ Verified asciiText (fun _ => "ab") (smooth [agentAsset] "") ⟨⟨"v2", [agentAsset]⟩, "elite-agent", some [7]⟩) ∧
    (run asciiText (fun _ => "ab") ("/tmp/" ++ ·) ⟨true, false, ""⟩
          (smooth [agentAsset, sumsAsset] "ab  not the elite-agent") =
        .ok ⟨⟨"v2", [agentAsset, sumsAsset]⟩, "elite-agent", some [7]⟩ ∧
      ¬ Verified asciiText (fun _ => "ab") (smooth [agentAsset, sumsAsset] "ab  not the elite-agent")
        ⟨⟨"v2", [agentAsset, sumsAsset]⟩, "elite-agent", some [7]⟩) := by
  refine ⟨⟨rfl, fun h => h.1 rfl⟩, rfl, fun h => ?_⟩
  obtain ⟨-, data, -, hash, hdata, -, ⟨name, hmem, -⟩, -⟩ := h
  obtain rfl := Download.done.inj hdata
  have hlines : sumLines (asciiText ("ab  not the elite-agent".toList.map fun c => .ofNat c.toNat)) =
      [["ab", "not", "the", "elite-agent"]] := rfl
  rw [hlines] at hmem
  simp at hmem

end EliteTelemetry.Updater
