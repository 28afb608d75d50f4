import NexusBackend.Kis.Account

/-!
The two written forms of an account number, and the account that a request names.

Both clients read `KIS_ACCOUNT_NUMBER` on their own, with the same function.
-/
namespace NexusBackend

open Python

def KisOrderClient.parseAccountNumber (raw : Text) : Text × Text :=
  NexusBackend.parseAccountNumber raw

def KisBalanceClient.parseAccountNumber (raw : Text) : Text × Text :=
  NexusBackend.parseAccountNumber raw

/-- An account: eight characters and a product code, with neither hyphens nor white space. -/
structure KisAccount where
  cano : Text
  product : Text
  cano_length : cano.length = 8
  product_ne : product ≠ []
  plain : ∀ c ∈ cano ++ product, c ≠ 45 ∧ isSpace c = false

namespace KisAccount

def hyphenated (a : KisAccount) : Text := a.cano ++ 45 :: a.product

def unhyphenated (a : KisAccount) : Text := a.cano ++ a.product

/-- Both clients read the account off the text. -/
def ReadsAs (a : KisAccount) (raw : Text) : Prop :=
  KisOrderClient.parseAccountNumber raw = (a.cano, a.product) ∧
    KisBalanceClient.parseAccountNumber raw = (a.cano, a.product)

instance (a : KisAccount) (raw : Text) : Decidable (a.ReadsAs raw) :=
  inferInstanceAs (Decidable (_ ∧ _))

variable (a : KisAccount)

theorem readsAs_iff (raw : Text) :
    a.ReadsAs raw ↔ parseAccountNumber raw = (a.cano, a.product) := and_self_iff

theorem cano_plain : 45 ∉ a.cano := fun h =>
  (a.plain 45 (List.mem_append_left _ h)).1 rfl

theorem product_plain : 45 ∉ a.product := fun h =>
  (a.plain 45 (List.mem_append_right _ h)).1 rfl

theorem strip_plain {s : Text} (h : ∀ c ∈ s, isSpace c = false) : strip s = s := by
  have hlast : ∀ c ∈ s.getLast?, isSpace c = false :=
    fun c hc => h c (List.mem_of_getLast? hc)
  rw [strip_eq, lstrip_of_head fun c hc => h c (List.mem_of_head? hc)]
  exact rstrip_of_last hlast

theorem parse_hyphenated : parseAccountNumber a.hyphenated = (a.cano, a.product) := by
  have hcano : strip a.cano = a.cano :=
    strip_plain fun c hc => (a.plain c (List.mem_append_left _ hc)).2
  have hproduct : strip a.product = a.product :=
    strip_plain fun c hc => (a.plain c (List.mem_append_right _ hc)).2
  have hparts : splitMax 45 1 a.hyphenated = [a.cano, a.product] := by
    rw [hyphenated, splitMax_append a.cano_plain, splitMax_of_not_mem a.product_plain]
  rw [parseAccountNumber, if_neg (by simp [hyphenated]), hparts]
  dsimp only
  rw [hcano, hproduct, if_neg a.product_ne]

/-- Without the hyphen the code loses its leading zeros, and one of zeros only is taken for the
default. -/
theorem parse_unhyphenated : parseAccountNumber a.unhyphenated =
    (a.cano, if a.product.dropWhile (· = 48) = [] then text "01"
      else a.product.dropWhile (· = 48)) := by
  have hmem : 45 ∉ a.unhyphenated := fun h =>
    (List.mem_append.mp h).elim a.cano_plain a.product_plain
  have htake : a.unhyphenated.take 8 = a.cano := List.take_left' a.cano_length
  have hdrop : a.unhyphenated.drop 8 = a.product := List.drop_left' a.cano_length
  rw [parseAccountNumber, if_neg (by simp [unhyphenated, a.product_ne]),
    splitMax_of_not_mem hmem]
  dsimp only
  rw [htake, hdrop]

theorem parse_unhyphenated_iff :
    parseAccountNumber a.unhyphenated = (a.cano, a.product) ↔ a.product.head? ≠ some 48 := by
  rw [parse_unhyphenated, Prod.mk.injEq, and_iff_right rfl]
  cases hproduct : a.product with
  | nil => exact absurd hproduct a.product_ne
  | cons c cs =>
      rw [List.head?_cons, ne_eq, Option.some.injEq]
      by_cases hc : c = 48
      · have hdrop : (c :: cs).dropWhile (· = 48) = cs.dropWhile (· = 48) :=
          List.dropWhile_cons_of_pos (by simpa using hc)
        have hlength := (List.dropWhile_sublist (· = 48) (l := cs)).length_le
        rw [hdrop]
        refine iff_of_false ?_ (not_not_intro hc)
        intro heq
        split at heq
        · rename_i hzeros
          have hone : text "01" = [48, 49] := by decide
          rw [hone, List.cons.injEq] at heq
          rw [← heq.2] at hzeros
          exact absurd hzeros (by decide)
        · rw [heq, List.length_cons] at hlength
          omega
      · have hdrop : (c :: cs).dropWhile (· = 48) = c :: cs :=
          List.dropWhile_cons_of_neg (by simpa using hc)
        rw [hdrop, if_neg (List.cons_ne_nil c cs)]
        exact iff_of_true rfl hc

/-- Both clients read both forms as the account exactly when the product code has no leading
zero. -/
theorem readsAs_both_forms_iff :
    (a.ReadsAs a.hyphenated ∧ a.ReadsAs a.unhyphenated) ↔ a.product.head? ≠ some 48 := by
  rw [readsAs_iff, readsAs_iff, and_iff_right a.parse_hyphenated]
  exact a.parse_unhyphenated_iff

/-- The account of the documentation. -/
def documented : KisAccount where
  cano := text "12345678"
  product := text "01"
  cano_length := rfl
  product_ne := List.cons_ne_nil _ _
  plain := by decide

theorem documented_unhyphenated_lost : ¬ documented.ReadsAs documented.unhyphenated := by
  decide

end KisAccount

/-! ### The account of a request -/

/-- The account that a request names. -/
def KisRequest.account (request : KisRequest) : Option (Text × Text) := do
  return (← Json.get? request.fields (text "CANO"),
    ← Json.get? request.fields (text "ACNT_PRDT_CD"))

theorem KisOrderClient.request_account {client : KisOrderClient} {token : Option Text}
    {order : PlaceOrder} {request : KisRequest} (h : client.request token order = .ok request) :
    request.account = some (parseAccountNumber client.settings.accountNumber) := by
  simp only [KisOrderClient.request] at h
  split at h
  · cases h
  split at h
  · cases h
  split at h
  · cases h
  obtain ⟨t, -, h⟩ := bind_eq_ok_iff.mp h
  obtain ⟨trId, -, h⟩ := bind_eq_ok_iff.mp h
  cases h
  rfl

theorem KisBalanceClient.request_account {client : KisBalanceClient} {token : Option Text}
    {request : KisRequest} (h : client.request token = .ok request) :
    request.account = some (parseAccountNumber client.settings.accountNumber) := by
  obtain ⟨t, -, h⟩ := bind_eq_ok_iff.mp h
  cases h
  rfl

/-- An order and a balance query name one account, each configured with another of its forms,
exactly when the product code has no leading zero. -/
theorem KisAccount.requests_agree_iff (a : KisAccount) {orders : KisOrderClient}
    {balances : KisBalanceClient} (horders : orders.settings.accountNumber = a.hyphenated)
    (hbalances : balances.settings.accountNumber = a.unhyphenated) {token token' : Option Text}
    {order : PlaceOrder} {placed queried : KisRequest}
    (hplaced : orders.request token order = .ok placed)
    (hqueried : balances.request token' = .ok queried) :
    placed.account = queried.account ↔ a.product.head? ≠ some 48 := by
  rw [KisOrderClient.request_account hplaced, KisBalanceClient.request_account hqueried,
    horders, hbalances, Option.some.injEq, ← a.parse_unhyphenated_iff]
  change NexusBackend.parseAccountNumber _ = NexusBackend.parseAccountNumber _ ↔ _
  rw [a.parse_hyphenated]
  exact eq_comm

end NexusBackend
