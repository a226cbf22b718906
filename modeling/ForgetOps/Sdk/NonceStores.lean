import ForgetOps.Library.ReplayWindow
import ForgetOps.Library.Table

/-
  The nonce stores of the TypeScript adapter (`sdk/typescript/src/signature.ts`).

  Both keep a map of nonces to their expiry, in which a call first deletes what has expired; the
  calls of one store run one after another. `FileNonceStore` fills its map from the file at its
  first call that reads one, and appends before it accepts. A line of the file is a record or it is
  none; what a failed append leaves of the file is the outside's. Both are guards.
-/

namespace ForgetOps.AdapterSdk

/-- `for (const [value, expiry] of nonces) if (expiry < nowMs) nonces.delete(value)`. -/
def deleteExpired (nonces : Table String Int) (nowMs : Int) : Table String Int :=
  nonces.keep fun expiry => ¬ expiry < nowMs

theorem find_deleteExpired {nonces : Table String Int} {nonce : String} {nowMs expiry : Int}
    (h : nonces.find nonce = some expiry) (hnow : nowMs ≤ expiry) :
    (deleteExpired nonces nowMs).find nonce = some expiry := by
  unfold deleteExpired
  rw [Table.find_keep, h, Option.filter_some, if_pos (by simpa using hnow)]

/-! ## In memory -/

abbrev MemoryNonceStore := Table String Int

def MemoryNonceStore.new : MemoryNonceStore := Table.empty

def MemoryNonceStore.consume (nonces : MemoryNonceStore) (nonce : String)
    (expiresAtMs nowMs : Int) : Except Unit Bool × MemoryNonceStore :=
  let left := deleteExpired nonces nowMs
  if (left.find nonce).isSome then (.ok false, left)
  else (.ok true, left.set nonce (some expiresAtMs))

/-! ## In a file -/

structure NonceRecord where
  nonce : String
  expiresAtMs : Int
  deriving DecidableEq, Repr

structure FileNonceStore where
  loaded : Bool
  nonces : Table String Int
  file : List (Option NonceRecord)

/-- What the file system does during one call: whether it reads the file, whether it appends and
    syncs, and what is in the file when it does not. -/
structure FileIo where
  reads : Bool
  appends : Bool
  left : List (Option NonceRecord)

namespace FileNonceStore

def new (file : List (Option NonceRecord)) : FileNonceStore := ⟨false, Table.empty, file⟩

/-- The records up to the first line that is none, and whether there is no such line. -/
def loadLines : Table String Int → List (Option NonceRecord) → Bool × Table String Int
  | nonces, [] => (true, nonces)
  | nonces, none :: _ => (false, nonces)
  | nonces, some record :: lines =>
    loadLines (nonces.set record.nonce (some record.expiresAtMs)) lines

def load (store : FileNonceStore) (io : FileIo) : FileNonceStore :=
  if store.loaded then store
  else if io.reads then
    let (loaded, nonces) := loadLines store.nonces store.file
    { store with loaded, nonces }
  else store

def consume (store : FileNonceStore) (io : FileIo) (nonce : String) (expiresAtMs nowMs : Int) :
    Except Unit Bool × FileNonceStore :=
  let store := store.load io
  if store.loaded then
    let left := deleteExpired store.nonces nowMs
    if (left.find nonce).isSome then (.ok false, { store with nonces := left })
    else if io.appends then
      (.ok true, { store with nonces := left.set nonce (some expiresAtMs),
                              file := store.file ++ [some ⟨nonce, expiresAtMs⟩] })
    else (.error (), { store with nonces := left, file := io.left })
  else (.error (), store)

/-- A store that has read its file does not read it again. -/
theorem load_of_loaded {store : FileNonceStore} (h : store.loaded = true) (io : FileIo) :
    store.load io = store := if_pos h

end FileNonceStore

/-! ## Guards -/

/-- What one call makes of the map, where it lets the nonce through. -/
theorem find_consumed {nonces : Table String Int} {nonce nonce' : String}
    {expiry expiresAtMs nowMs : Int} (h : nonces.find nonce = some expiry) (hnow : nowMs ≤ expiry)
    (hfree : ((deleteExpired nonces nowMs).find nonce').isSome = false) :
    ((deleteExpired nonces nowMs).set nonce' (some expiresAtMs)).find nonce = some expiry := by
  have hkept := find_deleteExpired h hnow
  rw [Table.find_set_of_ne _ _ ?_, hkept]
  rintro rfl
  rw [hkept] at hfree
  cases hfree

def memoryNonceGuard : ReplayGuard String MemoryNonceStore FileIo where
  consume nonces _ nonce expiresAtMs nowMs := nonces.consume nonce expiresAtMs nowMs
  Remembers nonces nonce expiresAtMs := Table.find nonces nonce = some expiresAtMs
  learns := by
    intro nonces _ nonce expiresAtMs nowMs h
    unfold MemoryNonceStore.consume at h ⊢
    dsimp only at h ⊢
    split_ifs at h ⊢
    · cases h
    · exact Table.find_set_self _ _ _
  keeps := by
    intro nonces _ nonce nonce' expires expires' nowMs h hnow
    unfold MemoryNonceStore.consume
    dsimp only
    split_ifs with hsome
    · exact find_deleteExpired h hnow
    · exact find_consumed h hnow (Bool.eq_false_of_not_eq_true hsome)
  refuses := by
    intro nonces _ nonce expires expires' nowMs h hnow
    unfold MemoryNonceStore.consume
    dsimp only
    rw [find_deleteExpired h hnow]
    simp

def fileNonceGuard : ReplayGuard String FileNonceStore FileIo where
  consume := FileNonceStore.consume
  Remembers store nonce expiresAtMs :=
    store.loaded = true ∧ store.nonces.find nonce = some expiresAtMs
  learns := by
    intro store io nonce expiresAtMs nowMs h
    unfold FileNonceStore.consume at h ⊢
    dsimp only at h ⊢
    split_ifs at h ⊢ with hloaded
    · cases h
    · exact ⟨hloaded, Table.find_set_self _ _ _⟩
  keeps := by
    intro store io nonce nonce' expires expires' nowMs h hnow
    unfold FileNonceStore.consume
    rw [FileNonceStore.load_of_loaded h.1]
    dsimp only
    rw [if_pos h.1]
    split_ifs with hsome
    · exact ⟨h.1, find_deleteExpired h.2 hnow⟩
    · exact ⟨h.1, find_consumed h.2 hnow (Bool.eq_false_of_not_eq_true hsome)⟩
    · exact ⟨h.1, find_deleteExpired h.2 hnow⟩
  refuses := by
    intro store io nonce expires expires' nowMs h hnow
    unfold FileNonceStore.consume
    rw [FileNonceStore.load_of_loaded h.1]
    dsimp only
    rw [if_pos h.1, find_deleteExpired h.2 hnow]
    simp

end ForgetOps.AdapterSdk
