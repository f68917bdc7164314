import AutoSwe.Lib.JsonText

/-!
# Values

Identifiers, times and raised exceptions, as the services exchange them; JSON
columns hold a `Json`. A UUID is its 128-bit integer; `UUID.str` is its canonical
text, which is what a JSON column and a cast to `text` hold.
-/

namespace AutoSwe

open List

/-! ## UUID -/

structure UUID where
  int : Fin (2 ^ 128)
deriving DecidableEq

def hexDigit (n : Nat) : Char :=
  "0123456789abcdef".toList.getD n '0'

/-- The last `width` hexadecimal digits of `n`, most significant first. -/
def hex : (width : Nat) → (n : Nat) → List Char
  | 0, _ => []
  | width + 1, n => hex width (n / 16) ++ [hexDigit (n % 16)]

theorem hexDigit_inj : ∀ m < 16, ∀ n < 16, hexDigit m = hexDigit n → m = n := by
  decide

theorem hexDigit_ne_dash : ∀ n < 16, hexDigit n ≠ '-' := by
  decide

theorem hex_inj : ∀ {width m n : Nat}, m < 16 ^ width → n < 16 ^ width →
    hex width m = hex width n → m = n
  | 0, m, n, hm, hn, _ => by simp at hm hn; omega
  | width + 1, m, n, hm, hn, h => by
    simp only [hex] at h
    obtain ⟨hinit, hlast⟩ := append_inj' h rfl
    have hdiv := hex_inj (by omega) (by omega) hinit
    have hmod := hexDigit_inj (m % 16) (by omega) (n % 16) (by omega) (by simpa using hlast)
    omega

theorem hex_ne_dash : ∀ {width n : Nat} {c : Char}, c ∈ hex width n → c ≠ '-'
  | width + 1, n, c, h => by
    rcases mem_append.mp h with h | h
    · exact hex_ne_dash h
    · rw [mem_singleton.mp h]
      exact hexDigit_ne_dash _ (by omega)

namespace UUID

def digits (id : UUID) : List Char := hex 32 id.int

/-- `str(uuid)`: the digits in groups of 8, 4, 4, 4 and 12. -/
def str (id : UUID) : String :=
  let ds := id.digits
  String.ofList (ds.take 8 ++ '-' :: ((ds.drop 8).take 4 ++ '-' :: ((ds.drop 12).take 4 ++
    '-' :: ((ds.drop 16).take 4 ++ '-' :: ds.drop 20))))

theorem digits_of_str (id : UUID) : id.str.toList.filter (· ≠ '-') = id.digits := by
  have hkeep : ∀ ds : List Char, (∀ c ∈ ds, c ∈ id.digits) → ds.filter (· ≠ '-') = ds := by
    intro ds hds
    refine filter_eq_self.mpr fun c hc => ?_
    simpa using hex_ne_dash (hds c hc)
  have htake : ∀ m n, ∀ c ∈ (id.digits.drop m).take n, c ∈ id.digits :=
    fun m n c hc => mem_of_mem_drop (mem_of_mem_take hc)
  have hsplit : ∀ m n, (id.digits.drop m).take n ++ id.digits.drop (m + n) = id.digits.drop m := by
    intro m n
    rw [← drop_drop, take_append_drop]
  simp only [str, String.toList_ofList, filter_append, filter_cons]
  rw [hkeep _ (fun c hc => mem_of_mem_take hc), hkeep _ (htake 8 4), hkeep _ (htake 12 4),
    hkeep _ (htake 16 4), hkeep _ (fun c hc => mem_of_mem_drop hc)]
  simp only [ne_eq, not_true_eq_false, decide_false, Bool.false_eq_true, if_false]
  rw [hsplit 16 4, hsplit 12 4, hsplit 8 4, take_append_drop]

theorem str_injective : Function.Injective str := by
  intro u v h
  have hd : u.digits = v.digits := by rw [← digits_of_str u, ← digits_of_str v, h]
  have hv := hex_inj (by simp) (by simp) hd
  cases u
  cases v
  exact congrArg _ (Fin.ext hv)

end UUID

instance : OfNat UUID n := ⟨⟨Fin.ofNat (2 ^ 128) n⟩⟩

/-- The namespace of the name-based ids. -/
def namespaceUrl : UUID := 0x6ba7b8119dad11d180b400c04fd430c8

/-! ## Times, exceptions -/

/-- Microseconds since the epoch. -/
abbrev Time := Int

inductive ErrorKind
  | lookupError
  | permissionError
  | runtimeError
  | valueError
  | staleStateError
  | invalidStateTransition
  | taskBudgetExhausted
  | integrityError
  | checkpointIdentityError
  | workflowCancellation
  | workflowCancelled
  | planningOwnershipLost
  | keyError
  | indexError
  | httpException
  | repairIntegrityError
  | approvalBindingError
  | approvalExpired
  | approvalNotGranted
  | toolGatewayError
  | toolIdempotencyConflict
  | worktreePolicyError
  | memoryUnavailable
  | memoryContractError
  | toolClaimInProgress
  | approvalRequired
  | assertionError
  | typeError
deriving DecidableEq

/-- A raised exception: its class and its text. -/
structure Raised where
  kind : ErrorKind
  message : String
deriving DecidableEq

theorem except_bind_ok {x : Except ε α} {f : α → Except ε β} :
    x >>= f = .ok b ↔ ∃ a, x = .ok a ∧ f a = .ok b := by
  cases x <;> simp [bind, Except.bind]

end AutoSwe
