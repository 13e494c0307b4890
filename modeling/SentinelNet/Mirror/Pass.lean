import SentinelNet.Lib.Assoc
import SentinelNet.Lib.Text

/-!
# A pass of the offsite mirror

`services/cloud_backup/sync.py` sends the archive of configurations to a remote directory: it hashes
the local files, sends those whose hash the state does not know, publishes a manifest and a restore
script, and checks the sizes of what it sent and of a sample of the rest.  The state of
`services/cloud_backup/state.py` is what is believed to be offsite.

* `planUploads`, `sendAll`, `manifestOf`, `checks`: its parts.
* `remoteName_injective`, `remoteName_encrypted_ne`: the names of the remote files.
-/

namespace SentinelNet.Mirror

open Assoc

/-! ## Files and names -/

/-- The content of a file. -/
abbrev Bytes := List UInt8

/-- Hashes under the paths of files. -/
abbrev Hashes := List (String × String)

/-- The files of the remote directory. -/
abbrev Remote := List (String × Bytes)

def manifestName : String := "_manifest.json"

def restoreName : String := "restore.py"

def remoteName (rel : String) (encrypted : Bool) : String :=
  if encrypted then rel ++ ".enc" else rel

structure ManifestEntry where
  rel : String
  sha256 : String
  size : Option ℕ
  deriving DecidableEq

structure Manifest where
  encrypted : Bool
  files : List ManifestEntry
  deriving DecidableEq

/-- The hash, the cipher, the text of a manifest and the restore script. -/
structure Tools where
  hexdigest : Bytes → String
  encrypt : Bytes → Bytes
  decrypt : Bytes → Bytes
  decrypt_encrypt : ∀ data, decrypt (encrypt data) = data
  render : Manifest → Bytes
  script : Bytes

/-- What the remote makes of a file that it takes: it keeps it, or it has something else or nothing
under its name then. -/
inductive Keeping where
  | exact
  | other (content : Option Bytes)
  deriving DecidableEq

/-- `put`, as far as the remote goes. -/
def keep (remote : Remote) (name : String) (body : Bytes) : Keeping → Remote
  | .exact => put remote name body
  | .other (some content) => put remote name content
  | .other none => erase remote name

/-- How the upload of a file goes: an `OSError` of the local file or of `put`, another exception, or
the content that was read, and what the remote made of it. -/
inductive Upload where
  | refused
  | broken
  | sent (data : Bytes) (keeping : Keeping)
  deriving DecidableEq

/-- What a pass finds: the setting `encrypt_payload`, the files as `walk_local` reads them, how each
upload goes, how the uploads of the manifest and of the script go (`none` is an exception), the
files that `random.sample` draws, and after how many checks `size` raises. -/
structure Pass where
  encrypt : Bool
  walked : List (String × Bytes)
  nodup : (walked.map Prod.fst).Nodup
  upload : String → Upload
  manifest : Option Keeping
  script : Option Keeping
  sample : List String
  raisesAfter : Option ℕ

section Parts

variable (t : Tools)

def sha256 (data : Bytes) : String := "sha256:" ++ t.hexdigest data

/-- What the remote gets of a content. -/
def body (encrypted : Bool) (data : Bytes) : Bytes := if encrypted then t.encrypt data else data

/-- What the restore script makes of a remote file. -/
def opened (encrypted : Bool) (content : Bytes) : Bytes :=
  if encrypted then t.decrypt content else content

theorem opened_body (encrypted : Bool) (data : Bytes) :
    opened t encrypted (body t encrypted data) = data := by
  cases encrypted with
  | false => rfl
  | true => exact t.decrypt_encrypt data

def Pass.hashes (p : Pass) : Hashes := p.walked.map fun f => (f.1, sha256 t f.2)

def planUploads (local' known : Hashes) : List String :=
  ((local'.filter fun e => find known e.1 ≠ some e.2).map Prod.fst).insertionSort (· ≤ ·)

/-- The uploads so far. -/
structure Sending where
  remote : Remote
  uploaded : List (String × ℕ)
  failed : List String
  broken : Bool

/-- A turn of the loop over the plan. -/
def send (p : Pass) (s : Sending) (rel : String) : Sending :=
  if s.broken then s
  else
    match p.upload rel with
    | .refused => { s with failed := s.failed ++ [rel] }
    | .broken => { s with broken := true }
    | .sent data keeping =>
      { s with
        remote := keep s.remote (remoteName rel p.encrypt) (body t p.encrypt data) keeping
        uploaded := s.uploaded ++ [(rel, (body t p.encrypt data).length)] }

/-- The loop over the plan. -/
def sendAll (p : Pass) (remote : Remote) (todo : List String) : Sending :=
  todo.foldl (send t p) ⟨remote, [], [], false⟩

/-- The entries of the walk, without the files whose upload failed. -/
def walkedEntries (p : Pass) (failed : List String) : List ManifestEntry :=
  (p.walked.filter fun f => f.1 ∉ failed).map fun f => ⟨f.1, sha256 t f.2, some f.2.length⟩

/-- The entries of the files whose upload failed: the hash that the state knows, if it knows one. -/
def knownEntries (known : Hashes) (failed : List String) : List ManifestEntry :=
  failed.filterMap fun rel => (find known rel).map fun h => ⟨rel, h, none⟩

def manifestOf (p : Pass) (known : Hashes) (failed : List String) : Manifest where
  encrypted := p.encrypt
  files := (walkedEntries t p failed ++ knownEntries known failed).insertionSort
    fun a b => a.rel ≤ b.rel

/-- A check of a size: the file, its remote name, and the size if it is known. -/
structure Check where
  rel : String
  name : String
  expected : Option ℕ
  deriving DecidableEq

/-- The local files that were not sent. -/
def unsent (p : Pass) (uploaded : List (String × ℕ)) : List String :=
  (p.walked.map Prod.fst).filter fun rel => rel ∉ uploaded.map Prod.fst

def checks (p : Pass) (uploaded : List (String × ℕ)) (manifestSize : ℕ) : List Check :=
  uploaded.map (fun u => ⟨u.1, remoteName u.1 p.encrypt, some u.2⟩) ++
    [⟨manifestName, manifestName, some manifestSize⟩,
      ⟨restoreName, restoreName, some t.script.length⟩] ++
    (p.sample.filter fun rel => rel ∈ unsent p uploaded).map fun rel =>
      ⟨rel, remoteName rel p.encrypt, none⟩

/-- `size` has what is expected. -/
def Check.passes (remote : Remote) (c : Check) : Bool :=
  match find remote c.name with
  | none => false
  | some content => c.expected.all fun n => content.length = n

structure Result where
  ok : Bool
  uploaded : ℕ
  skipped : ℕ
  failed : ℕ
  verified : ℕ
  files : Hashes
  unverified : List String
  deriving DecidableEq

/-- The result of a pass that ends with an exception after the uploads. -/
def brokenResult (p : Pass) (todo : List String) (s : Sending) : Result where
  ok := false
  uploaded := s.uploaded.length
  skipped := p.walked.length - todo.length
  failed := s.failed.length
  verified := 0
  files := []
  unverified := []

/-- The result of a pass that comes to its verification, with the outcomes of the checks that are
made and whether these are all. -/
def finalResult (p : Pass) (todo : List String) (s : Sending) (made : List Bool)
    (finished : Bool) : Result :=
  let failed := s.failed.length + made.countP (! ·)
  let ok := failed = 0 && finished
  { ok := ok
    uploaded := s.uploaded.length
    skipped := p.walked.length - todo.length
    failed := failed
    verified := made.countP id
    files := if ok then p.hashes t else []
    unverified := [] }

/-- What a pass leaves: the remote directory, the manifest if it was published, the result and the
checks that were made. -/
structure Outcome where
  remote : Remote
  published : Option Manifest
  result : Result
  made : List Check

/-- `run_mirror`, for a mirror that is enabled and not running. -/
def runMirror (p : Pass) (known : Hashes) (remote : Remote) : Outcome :=
  let todo := planUploads (p.hashes t) known
  let s := sendAll t p remote todo
  if s.broken then ⟨s.remote, none, brokenResult p todo s, []⟩
  else
    let manifest := manifestOf t p known s.failed
    match p.manifest with
    | none => ⟨s.remote, none, brokenResult p todo s, []⟩
    | some keeping =>
      let remote := keep s.remote manifestName (t.render manifest) keeping
      match p.script with
      | none => ⟨remote, some manifest, brokenResult p todo s, []⟩
      | some keeping =>
        let remote := keep remote restoreName t.script keeping
        let all := checks t p s.uploaded (t.render manifest).length
        let made := all.take (p.raisesAfter.getD all.length)
        let result := finalResult t p todo s (made.map (Check.passes remote))
          (made.length = all.length)
        ⟨remote, some manifest, result, made⟩

end Parts

/-- `record_run`: the files that the state knows after a pass. -/
def recordRun (known : Hashes) (result : Result) : Hashes :=
  if result.ok then result.files
  else if result.unverified = [] then known
  else result.unverified.foldl erase known

/-! ## Names -/

theorem remoteName_injective (encrypted : Bool) :
    Function.Injective fun rel => remoteName rel encrypted := by
  intro a b h
  cases encrypted with
  | false => exact h
  | true =>
    have happ := congrArg String.toList h
    simp only [remoteName, if_true, String.toList_append] at happ
    exact String.toList_inj.mp (List.append_cancel_right happ)

/-- No encrypted file has the name of the manifest or of the script. -/
theorem remoteName_encrypted_ne (rel : String) :
    remoteName rel true ≠ manifestName ∧ remoteName rel true ≠ restoreName := by
  have hlast : (remoteName rel true).toList.getLast? = some 'c' := by
    simp [remoteName]
  constructor
  · intro h
    rw [h] at hlast
    exact absurd hlast (by decide)
  · intro h
    rw [h] at hlast
    exact absurd hlast (by decide)

end SentinelNet.Mirror
