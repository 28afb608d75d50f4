import NexusBackend.Persistence.SecuritiesQuery

/-!
What the statements of `list_securities` and `count_securities` find.

Each clause that a builder adds keeps the parameters numbered from one without a gap and narrows
the rows by what the clause says, so both statements are about one set of rows. A search is
compared literally where it holds no sign of `LIKE`.
-/
namespace NexusBackend

open Python

/-! ### Texts -/

theorem storable_append {s t : Text} : Storable (s ++ t) ↔ Storable s ∧ Storable t := by
  simp only [Storable, Json.IsUnicode, List.mem_append, or_imp, forall_and, not_or]
  exact and_and_and_comm

theorem storable_of_mem {s : Text} (h : ∀ c ∈ s, Storable [c]) : Storable s := by
  refine ⟨fun c hc => (h c hc).1 c List.mem_cons_self, fun hc => ?_⟩
  exact (h 0 hc).2 List.mem_cons_self

theorem Storable.of_mem {s : Text} (h : Storable s) {c : Nat} (hc : c ∈ s) : Storable [c] := by
  refine ⟨?_, ?_⟩
  · intro d hd
    rw [List.mem_singleton.mp hd]
    exact h.1 c hc
  · rw [List.mem_singleton]
    rintro rfl
    exact h.2 hc

namespace SearchDatabase

variable {κ : Type} (db : SearchDatabase κ)

theorem lower_storable {s : Text} (h : Storable s) : Storable (db.lower s) := by
  refine storable_of_mem fun d hd => ?_
  rcases db.mem_lower hd with ⟨c, hc, hd⟩ | rfl | rfl
  · exact (db.toLower_storable c (h.of_mem hc)).of_mem hd
  · decide
  · decide

theorem lower_plain {s : Text} (h : sqlWildcards.IsPlain s) :
    sqlWildcards.IsPlain (db.lower s) := by
  intro d hd
  rcases db.mem_lower hd with ⟨c, hc, hd⟩ | rfl | rfl
  · exact db.toLower_plain c (h c hc) d hd
  · decide
  · decide

theorem sqlLowerText_append (s t : Text) :
    db.sqlLowerText (s ++ t) = db.sqlLowerText s ++ db.sqlLowerText t := List.flatMap_append

theorem sqlLowerText_percent : db.sqlLowerText (text "%") = text "%" := by
  change db.sqlLower 37 ++ [] = [37]
  rw [db.sqlLower_sign 37 (by decide)]
  rfl

/-- A text of which each character is lowered to itself. -/
theorem sqlLowerText_of_lowered {s : Text} (h : ∀ c ∈ s, db.sqlLower c = [c]) :
    db.sqlLowerText s = s := by
  induction s with
  | nil => rfl
  | cons c s ih =>
      obtain ⟨hc, hs⟩ := List.forall_mem_cons.mp h
      rw [sqlLowerText, List.flatMap_cons, hc]
      exact congrArg (c :: ·) (ih hs)

theorem sqlLowerText_plain_iff {s : Text} :
    sqlWildcards.IsPlain (db.sqlLowerText s) ↔ sqlWildcards.IsPlain s := by
  constructor
  · intro h c hc hsign
    refine h c (List.mem_flatMap.mpr ⟨c, hc, ?_⟩) hsign
    rw [db.sqlLower_sign c hsign]
    exact List.mem_singleton_self c
  · intro h d hd
    obtain ⟨c, hc, hd⟩ := List.mem_flatMap.mp hd
    exact db.sqlLower_plain c (h c hc) d hd

/-! ### What the clauses say of a row -/

/-- The row passes both filters. -/
def passesFilters (markets sectors : Option (List Text)) (row : SecurityRow) : Bool :=
  (given markets).all (fun markets => decide (row.market ∈ markets)) &&
    (given sectors).all fun sectors => decide (row.sector ∈ sectors)

/-- A pattern or an alias matches the row. -/
def matchesSearch (search : Text) (row : SecurityRow) : Bool :=
  sqlWildcards.like (db.sqlLowerText row.ticker) (db.sqlLowerText (search ++ text "%")) ||
    sqlWildcards.like (db.sqlLowerText (row.nameKo.getD []))
      (text "%" ++ db.lower search ++ text "%") ||
    sqlWildcards.like (db.sqlLowerText (row.nameEn.getD []))
      (text "%" ++ db.lower search ++ text "%") ||
    row.aliases.any fun a => a ∈ [search, db.lower search, db.upper search]

end SearchDatabase

/-- The clauses hold of the rows that `P` says, and their arguments can be sent where `S` holds.
The parameters are numbered from one without a gap, so arguments may follow. -/
structure Where.Means {κ : Type} (w : Where) (db : SearchDatabase κ) (P : SecurityRow → Bool)
    (S : Prop) : Prop where
  numbered : w.references = (w.params.map SqlParam.type).zipIdx 1
  storable : (∀ p ∈ w.params, p.Storable) ↔ S
  ends : ∀ more, ∀ c ∈ w.clauses, c.PatternsEnd db (w.params ++ more)
  holds : ∀ more row, (w.clauses.all fun c => c.holds db (w.params ++ more) row) = P row

theorem argument_append (params more : List SqlParam) (i : Nat) :
    argument (params ++ more) (params.length + 1 + i) = more[i]? := by
  rw [Nat.add_right_comm]
  exact List.getElem?_append_right (Nat.le_add_right _ _) |>.trans (by rw [Nat.add_sub_cancel_left])

namespace Where

variable {κ : Type} {db : SearchDatabase κ} {w : Where} {P : SecurityRow → Bool} {S : Prop}

theorem means_empty : ({} : Where).Means db (fun _ => true) True where
  numbered := rfl
  storable := iff_of_true nofun trivial
  ends _ := nofun
  holds _ _ := rfl

/-- One more clause, with the arguments that it names. -/
theorem Means.add (h : w.Means db P S) {params : List SqlParam} {c : SqlClause}
    {Q : SecurityRow → Bool} {T : Prop}
    (hnumbered : c.references = (params.map SqlParam.type).zipIdx (w.params.length + 1))
    (hstorable : (∀ p ∈ params, p.Storable) ↔ T)
    (hends : ∀ more, c.PatternsEnd db (w.params ++ (params ++ more)))
    (hholds : ∀ more row, c.holds db (w.params ++ (params ++ more)) row = Q row) :
    Means ⟨w.clauses ++ [c], w.params ++ params⟩ db (fun row => P row && Q row) (S ∧ T) where
  numbered := by
    rw [references, List.flatMap_append, List.flatMap_singleton, List.map_append,
      List.zipIdx_append, List.length_map, Nat.add_comm 1, ← hnumbered, ← h.numbered]
    rfl
  storable := by
    rw [List.forall_mem_append, h.storable, hstorable]
  ends := by
    intro more
    rw [List.append_assoc, List.forall_mem_append, List.forall_mem_singleton]
    exact ⟨h.ends _, hends more⟩
  holds := by
    intro more row
    rw [List.append_assoc, List.all_append, h.holds, List.all_cons, List.all_nil, Bool.and_true,
      hholds]

theorem clause_append (w : Where) (p : SqlParam) (c : Nat → SqlClause) :
    (w.append p).clause (c (w.append p).params.length) =
      ⟨w.clauses ++ [c (w.params.length + 1)], w.params ++ [p]⟩ := by
  rw [append, clause, List.length_append]
  rfl

theorem clause_append_three (w : Where) (p q r : SqlParam) :
    (((w.append p).append q).append r).clause
        (.search (w.append p).params.length ((w.append p).append q).params.length
          (((w.append p).append q).append r).params.length) =
      ⟨w.clauses ++ [.search (w.params.length + 1) (w.params.length + 2) (w.params.length + 3)],
        w.params ++ [p, q, r]⟩ := by
  simp only [append, clause, List.length_append, List.append_assoc]
  rfl

theorem Means.marketAny (h : w.Means db P S) (markets : List Text) :
    let w₁ := w.append (.texts markets)
    (w₁.clause (.marketAny w₁.params.length)).Means db
      (fun row => P row && decide (row.market ∈ markets)) (S ∧ ∀ s ∈ markets, Storable s) := by
  dsimp only
  rw [clause_append w (.texts markets) .marketAny]
  refine h.add rfl List.forall_mem_singleton (fun _ => trivial) ?_
  intro more row
  rw [SqlClause.holds, textsArgument, argument_append w.params _ 0]
  rfl

theorem Means.sectorAny (h : w.Means db P S) (sectors : List Text) :
    let w₁ := w.append (.texts sectors)
    (w₁.clause (.sectorAny w₁.params.length)).Means db
      (fun row => P row && decide (row.sector ∈ sectors)) (S ∧ ∀ s ∈ sectors, Storable s) := by
  dsimp only
  rw [clause_append w (.texts sectors) .sectorAny]
  refine h.add rfl List.forall_mem_singleton (fun _ => trivial) ?_
  intro more row
  rw [SqlClause.holds, textsArgument, argument_append w.params _ 0]
  rfl

/-- The three arguments of a search can be sent where the search can. -/
theorem storable_search (db : SearchDatabase κ) (search : Text) :
    (∀ p ∈ [SqlParam.text (search ++ text "%"), .text (text "%" ++ db.lower search ++ text "%"),
      .texts [search, db.lower search, db.upper search]], p.Storable) ↔ Storable search := by
  have hpercent : Storable (text "%") := by decide
  simp only [List.forall_mem_cons, SqlParam.Storable, storable_append]
  constructor
  · intro h
    exact h.1.1
  · intro h
    have hlower := db.lower_storable h
    exact ⟨⟨h, hpercent⟩, ⟨⟨hpercent, hlower⟩, hpercent⟩,
      ⟨h, hlower, db.upper_storable search h, nofun⟩, nofun⟩

theorem Means.search (h : w.Means db P S) (search : Text) :
    let w₁ := w.append (.text (search ++ text "%"))
    let w₂ := w₁.append (.text (text "%" ++ db.lower search ++ text "%"))
    let w₃ := w₂.append (.texts [search, db.lower search, db.upper search])
    (w₃.clause (.search w₁.params.length w₂.params.length w₃.params.length)).Means db
      (fun row => P row && db.matchesSearch search row) (S ∧ Storable search) := by
  dsimp only
  rw [clause_append_three]
  refine h.add rfl (storable_search db search) ?_ ?_
  · intro more
    rw [SqlClause.PatternsEnd, textArgument, textArgument, argument_append w.params _ 0,
      argument_append w.params _ 1]
    refine ⟨?_, sqlWildcards.tokens_isSome _⟩
    change (sqlWildcards.tokens (db.sqlLowerText (search ++ text "%"))).isSome
    rw [db.sqlLowerText_append, db.sqlLowerText_percent]
    exact sqlWildcards.tokens_isSome _
  · intro more row
    rw [SqlClause.holds, textArgument, textArgument, textsArgument,
      argument_append w.params _ 0, argument_append w.params _ 1, argument_append w.params _ 2]
    rfl

theorem Means.elim {α : Type} (h : w.Means db P S) {x : Option α} {f : α → Where}
    {Q : α → SecurityRow → Bool} {T : α → Prop}
    (hf : ∀ a, (f a).Means db (fun row => P row && Q a row) (S ∧ T a)) :
    (x.elim w f).Means db (fun row => P row && x.all fun a => Q a row) (S ∧ ∀ a ∈ x, T a) := by
  cases x with
  | none =>
      have hP : (fun row => P row && (none : Option α).all fun a => Q a row) = P := by
        funext row
        exact Bool.and_true _
      have hS : (S ∧ ∀ a ∈ (none : Option α), T a) ↔ S := and_iff_left nofun
      rw [hP, hS]
      exact h
  | some a =>
      have hS : (∀ b ∈ some a, T b) ↔ T a := by simp
      rw [hS]
      exact hf a

end Where

namespace SearchDatabase

variable {κ : Type} (db : SearchDatabase κ)

/-- The filters and the search can be sent to the database. -/
def Sendable (markets sectors : Option (List Text)) (search : Option Text) : Prop :=
  (∀ ms ∈ given markets, ∀ s ∈ ms, Storable s) ∧ (∀ ss ∈ given sectors, ∀ s ∈ ss, Storable s) ∧
    ∀ s ∈ given search, Storable s

instance (markets sectors : Option (List Text)) (search : Option Text) :
    Decidable (Sendable markets sectors search) := inferInstanceAs (Decidable (_ ∧ _ ∧ _))

/-- The row passes the filters and is matched by the search, where there is one. -/
def selects (markets sectors : Option (List Text)) (search : Option Text) (row : SecurityRow) :
    Bool :=
  passesFilters markets sectors row && (given search).all fun s => db.matchesSearch s row

theorem listWhere_means (markets sectors : Option (List Text)) (search : Option Text) :
    (db.listWhere markets sectors search).Means db (db.selects markets sectors search)
      (Sendable markets sectors search) := by
  have hempty : ({} : Where).Means db (fun _ => true) True := Where.means_empty
  have hmarkets := hempty.elim (x := given markets) hempty.marketAny
  have hsectors := hmarkets.elim (x := given sectors) hmarkets.sectorAny
  have h := hsectors.elim (x := given search) hsectors.search
  rw [true_and, and_assoc] at h
  exact h

/-- The two builders make one clause. -/
theorem countWhere_eq : db.countWhere = db.listWhere := rfl

end SearchDatabase

section
variable {κ : Type} {db : SearchDatabase κ} {w : Where} {P : SecurityRow → Bool} {S : Prop}

theorem Where.Means.binds (h : w.Means db P S) {rest : List (SqlType × Nat)}
    {more : List SqlParam} (hrest : rest = (more.map SqlParam.type).zipIdx (w.params.length + 1)) :
    Binds (w.references ++ rest) (w.params ++ more) := by
  have heq : w.references ++ rest = ((w.params ++ more).map SqlParam.type).zipIdx 1 := by
    rw [h.numbered, hrest, List.map_append, List.zipIdx_append, List.length_map, Nat.add_comm 1]
  rw [heq]
  exact ⟨fun _ hr => hr, fun _ hr => hr⟩

/-- What the database answers to a clause, with arguments after its own. -/
theorem Where.Means.select_eq (h : w.Means db P S) [Decidable S] (table : SecurityTable)
    (rest : List (SqlType × Nat)) (more : List SqlParam)
    (hrest : rest = (more.map SqlParam.type).zipIdx (w.params.length + 1))
    (hmore : ∀ p ∈ more, p.Storable) :
    db.select table w rest (w.params ++ more) =
      if S then .ok (table.rows.filter P) else raise postgresError := by
  have hends : ¬ ∃ c ∈ w.clauses, ¬ c.PatternsEnd db (w.params ++ more) := by
    rintro ⟨c, hc, hends⟩
    exact hends (h.ends more c hc)
  rw [SearchDatabase.select, if_neg (not_not_intro (h.binds hrest)), if_neg hends]
  simp only [h.holds]
  by_cases hS : S
  · have hstorable : ¬ ∃ p ∈ w.params ++ more, ¬ p.Storable := by
      rintro ⟨p, hp, hbad⟩
      rcases List.mem_append.mp hp with hp | hp
      · exact hbad (h.storable.mpr hS p hp)
      · exact hbad (hmore p hp)
    rw [if_neg hstorable, if_pos hS]
  · have hunstorable : ∃ p ∈ w.params ++ more, ¬ p.Storable := by
      by_contra hall
      push Not at hall
      exact hS (h.storable.mp fun p hp => hall p (List.mem_append_left _ hp))
    rw [if_pos hunstorable, if_neg hS]

end

namespace SearchDatabase

variable {κ : Type} (db : SearchDatabase κ) (table : SecurityTable)

/-- The rows that `count_securities` counts. -/
def countedRows (markets sectors : Option (List Text)) (search : Option Text) :
    List SecurityRow :=
  let w := db.countWhere markets sectors search
  match db.select table w [] w.params with
  | .ok rows => rows
  | .error _ => []

theorem select_countWhere (markets sectors : Option (List Text)) (search : Option Text) :
    db.select table (db.countWhere markets sectors search) []
        (db.countWhere markets sectors search).params =
      if Sendable markets sectors search then
        .ok (table.rows.filter (db.selects markets sectors search))
      else raise postgresError := by
  have h := (db.listWhere_means markets sectors search).select_eq table [] [] rfl
    (List.forall_mem_nil _)
  rw [List.append_nil] at h
  rw [countWhere_eq]
  exact h

theorem countedRows_eq (markets sectors : Option (List Text)) (search : Option Text) :
    db.countedRows table markets sectors search =
      if Sendable markets sectors search then table.rows.filter (db.selects markets sectors search)
      else [] := by
  rw [countedRows, select_countWhere]
  by_cases h : Sendable markets sectors search
  · rw [if_pos h, if_pos h]
  · rw [if_neg h, if_neg h]
    rfl

theorem mem_countedRows {markets sectors : Option (List Text)} {search : Option Text}
    {row : SecurityRow} :
    row ∈ db.countedRows table markets sectors search ↔
      Sendable markets sectors search ∧ row ∈ table.rows ∧
        db.selects markets sectors search row = true := by
  rw [countedRows_eq]
  split
  · rename_i hsendable
    rw [List.mem_filter, and_iff_right hsendable]
  · rename_i hsendable
    exact iff_of_false List.not_mem_nil fun h => hsendable h.1

theorem countSecurities_eq (markets sectors : Option (List Text)) (search : Option Text) :
    db.countSecurities table markets sectors search =
      .ok (db.countedRows table markets sectors search).length := by
  rw [countSecurities, countedRows_eq, fetchCount, select_countWhere]
  by_cases h : Sendable markets sectors search
  · rw [if_pos h, if_pos h]
    rfl
  · rw [if_neg h, if_neg h]
    rfl

/-- On a row of the table the mapper succeeds. -/
theorem rowToSecurity_ok {table : SecurityTable} {row : SecurityRow} (h : row ∈ table.rows) :
    ∃ item, db.rowToSecurity row = .ok item := by
  obtain ⟨m, hm, hvalue⟩ := List.mem_map.mp (table.market_check row h)
  rw [rowToSecurity]
  cases hfind : Market.members.find? fun m => m.value = row.market with
  | none =>
      have hnone := List.find?_eq_none.mp hfind m hm
      exact absurd hvalue (by simpa using hnone)
  | some market => exact ⟨_, rfl⟩

section
variable [LinearOrder κ]

theorem fetch_listWhere (markets sectors : Option (List Text)) (search : Option Text)
    {limit : Int} (hlimit : -2 ^ 63 ≤ limit ∧ limit < 2 ^ 63) :
    db.fetch table (db.listWhere markets sectors search)
        ((db.listWhere markets sectors search).params ++ [.int limit])
        ((db.listWhere markets sectors search).params.length + 1) =
      if Sendable markets sectors search then
        .ok ((Ranking.ascending (fun row => db.collate row.ticker)
          (table.rows.filter (db.selects markets sectors search))).take limit.toNat)
      else raise postgresError := by
  have hargument : intArgument ((db.listWhere markets sectors search).params ++ [.int limit])
      ((db.listWhere markets sectors search).params.length + 1) = limit := by
    rw [intArgument, argument_append _ _ 0]
    rfl
  rw [fetch, (db.listWhere_means markets sectors search).select_eq table [(.bigint, _)]
    [.int limit] rfl (List.forall_mem_singleton.mpr hlimit), hargument]
  by_cases h : Sendable markets sectors search
  · rw [if_pos h, if_pos h]
    rfl
  · rw [if_neg h, if_neg h]
    rfl

/-- The list is made of the first of the counted rows. -/
theorem listSecurities_eq (markets sectors : Option (List Text)) (search : Option Text)
    {limit : Int} (hlimit : limit < 2 ^ 63) :
    db.listSecurities table markets sectors search limit =
      ((Ranking.ascending (fun row => db.collate row.ticker)
        (db.countedRows table markets sectors search)).take limit.toNat).mapM db.rowToSecurity := by
  rw [listSecurities]
  split
  · rename_i hlow
    rw [Int.toNat_of_nonpos (by omega), List.take_zero]
    rfl
  · rename_i hlow
    have hlength : ((db.listWhere markets sectors search).params ++ [SqlParam.int limit]).length =
        (db.listWhere markets sectors search).params.length + 1 := List.length_append
    dsimp only
    rw [hlength, db.fetch_listWhere table markets sectors search ⟨by omega, hlimit⟩,
      countedRows_eq]
    by_cases h : Sendable markets sectors search
    · rw [if_pos h, if_pos h]
      rfl
    · rw [if_neg h, if_neg h, (Ranking.ascending_perm _ []).eq_nil, List.take_nil]
      rfl

/-- Both answers are about the counted rows: how many they are, and the first `limit` of them. -/
theorem answers_agree (markets sectors : Option (List Text)) (search : Option Text)
    {limit : Int} (hlimit : limit < 2 ^ 63) :
    db.countSecurities table markets sectors search =
        .ok (db.countedRows table markets sectors search).length ∧
      ∃ rows items, Ranking.IsFirst (fun row => db.collate row.ticker) limit.toNat rows
          (db.countedRows table markets sectors search) ∧
        rows.mapM db.rowToSecurity = .ok items ∧
        db.listSecurities table markets sectors search limit = .ok items := by
  refine ⟨db.countSecurities_eq table markets sectors search, ?_⟩
  have hfirst := Ranking.take_ascending_isFirst (fun row => db.collate row.ticker) limit.toNat
    (db.countedRows table markets sectors search)
  have hrows : ∀ row ∈ (Ranking.ascending (fun row => db.collate row.ticker)
      (db.countedRows table markets sectors search)).take limit.toNat,
      ∃ item, db.rowToSecurity row = .ok item := by
    intro row hrow
    have hcounted := (Ranking.ascending_perm _ _).mem_iff.mp (List.mem_of_mem_take hrow)
    exact db.rowToSecurity_ok ((db.mem_countedRows table).mp hcounted).2.1
  obtain ⟨items, hitems⟩ := mapM_ok hrows
  refine ⟨_, items, hfirst, hitems, ?_⟩
  rw [db.listSecurities_eq table markets sectors search hlimit]
  exact hitems

end

/-! ### A search compared literally -/

/-- Every character of the search stands for itself, whatever its case. -/
def FindsLiterally (search : Text) (row : SecurityRow) : Prop :=
  db.sqlLowerText search <+: db.sqlLowerText row.ticker ∨
    (∃ name, (row.nameKo = some name ∨ row.nameEn = some name) ∧
      db.lower search <:+: db.sqlLowerText name) ∨
    ∃ a ∈ row.aliases, a = search ∨ a = db.lower search ∨ a = db.upper search

theorem like_ticker_iff {search : Text} (h : sqlWildcards.IsPlain search) (ticker : Text) :
    sqlWildcards.like (db.sqlLowerText ticker) (db.sqlLowerText (search ++ text "%")) ↔
      db.sqlLowerText search <+: db.sqlLowerText ticker := by
  rw [db.sqlLowerText_append, db.sqlLowerText_percent]
  exact sqlWildcards.like_prefix_iff (db.sqlLowerText_plain_iff.mpr h)

theorem like_name_iff {search : Text} (h : sqlWildcards.IsPlain search) (hne : search ≠ [])
    (name : Option Text) :
    sqlWildcards.like (db.sqlLowerText (name.getD []))
        (text "%" ++ db.lower search ++ text "%") ↔
      ∃ n, name = some n ∧ db.lower search <:+: db.sqlLowerText n := by
  have hlike := @Wildcards.like_infix_iff _ sqlWildcards _ _ (db.lower_plain h)
    (db.sqlLowerText (name.getD []))
  refine hlike.trans ?_
  cases name with
  | none =>
      have hnonempty : db.lower search ≠ [] := mt (db.lower_eq_nil_iff search).mp hne
      refine iff_of_false ?_ nofun
      rw [Option.getD_none, sqlLowerText, List.flatMap_nil, List.infix_nil]
      exact hnonempty
  | some n => simp

/-- Where no sign is in it, the statement compares a search literally. -/
theorem matchesSearch_iff {search : Text} (h : sqlWildcards.IsPlain search) (hne : search ≠ [])
    (row : SecurityRow) : db.matchesSearch search row = true ↔ db.FindsLiterally search row := by
  have haliases : (row.aliases.any fun a => a ∈ [search, db.lower search, db.upper search]) = true ↔
      ∃ a ∈ row.aliases, a = search ∨ a = db.lower search ∨ a = db.upper search := by simp
  rw [matchesSearch, Bool.or_eq_true, Bool.or_eq_true, Bool.or_eq_true, db.like_ticker_iff h,
    db.like_name_iff h hne, db.like_name_iff h hne, haliases, FindsLiterally, or_assoc, or_assoc]
  refine or_congr_right ?_
  rw [← or_assoc, ← exists_or]
  simp only [or_and_right]

/-- A row whose ticker is as short as the pattern of the search allows. -/
def shortRow (search : Text) : SecurityRow where
  ticker := sqlWildcards.leastMatch (db.sqlLowerText search)
  nameKo := none
  nameEn := none
  aliases := []
  market := text "OTHER"
  sector := text "MISC"
  sectorLabel := text "Misc"
  currency := text "USD"
  sharesOutstanding := none
  marketCap := none
  isSubscribed := false
  dataSource := text "static_master"
  updatedAt := ⟨sampleDate, Time.midnight⟩

theorem mem_shortTicker {search : Text} {d : Nat} (h : d ∈ (db.shortRow search).ticker) :
    (∃ c ∈ search, d ∈ db.sqlLower c) ∨ d = 37 :=
  (sqlWildcards.mem_leastMatch h).imp_left List.mem_flatMap.mp

theorem shortRow_storable {search : Text} (h : Storable search) :
    ∀ s ∈ (db.shortRow search).texts, Storable s := by
  have hrest : ∀ s ∈ ["OTHER", "MISC", "Misc", "USD", "static_master"].map text, Storable s := by
    decide
  refine List.forall_mem_cons.mpr ⟨storable_of_mem fun d hd => ?_, hrest⟩
  rcases db.mem_shortTicker hd with ⟨c, hc, hd⟩ | rfl
  · exact (db.sqlLower_storable c (h.of_mem hc)).of_mem hd
  · decide

theorem sqlLowerText_shortTicker (search : Text) :
    db.sqlLowerText (db.shortRow search).ticker = (db.shortRow search).ticker := by
  refine db.sqlLowerText_of_lowered fun d hd => ?_
  rcases db.mem_shortTicker hd with ⟨c, -, hd⟩ | rfl
  · exact db.sqlLower_lower c d hd
  · exact db.sqlLower_sign 37 (by decide)

theorem matchesSearch_shortRow (search : Text) :
    db.matchesSearch search (db.shortRow search) = true := by
  rw [matchesSearch, sqlLowerText_shortTicker, sqlLowerText_append, sqlLowerText_percent]
  have hlike : sqlWildcards.like (db.shortRow search).ticker
      (db.sqlLowerText search ++ text "%") = true := sqlWildcards.like_leastMatch _
  rw [hlike]
  rfl

/-- Only a search without signs finds its short row literally. -/
theorem isPlain_of_findsLiterally {search : Text}
    (h : db.FindsLiterally search (db.shortRow search)) : sqlWildcards.IsPlain search := by
  rcases h with hticker | ⟨name, hname | hname, -⟩ | ⟨a, ha, -⟩
  · rw [sqlLowerText_shortTicker] at hticker
    exact db.sqlLowerText_plain_iff.mp (sqlWildcards.isPlain_of_prefix hticker)
  · cases hname
  · cases hname
  · cases ha

theorem other_checked : text "OTHER" ∈ Market.members.map Market.value := by decide

/-- The table with only that row. -/
def shortTable {search : Text} (h : Storable search) : SecurityTable where
  rows := [db.shortRow search]
  keys_nodup := List.nodup_singleton _
  storable := List.forall_mem_singleton.mpr (db.shortRow_storable h)
  market_check := List.forall_mem_singleton.mpr other_checked

/-- The counted rows pass the filters, and the search finds them literally. -/
def ComparesLiterally (search : Text) : Prop :=
  ∀ (table : SecurityTable) (markets sectors : Option (List Text)),
    ∀ row ∈ db.countedRows table markets sectors (some search),
      row ∈ table.rows ∧ passesFilters markets sectors row = true ∧ db.FindsLiterally search row

theorem given_some {search : Text} (h : search ≠ []) : given (some search) = some search := by
  simp [given, h]

theorem comparesLiterally_iff {search : Text} (hne : search ≠ []) :
    db.ComparesLiterally search ↔ sqlWildcards.IsPlain search ∨ ¬ Storable search := by
  constructor
  · intro h
    by_cases hstorable : Storable search
    · have hcounted : db.shortRow search ∈
          db.countedRows (db.shortTable hstorable) none none (some search) := by
        refine (db.mem_countedRows _).mpr ⟨⟨nofun, nofun, ?_⟩, List.mem_singleton_self _, ?_⟩
        · rw [given_some hne]
          rintro _ ⟨⟩
          exact hstorable
        · rw [selects, given_some hne]
          exact db.matchesSearch_shortRow search
      exact .inl (db.isPlain_of_findsLiterally (h _ none none _ hcounted).2.2)
    · exact .inr hstorable
  · intro h table markets sectors row hrow
    obtain ⟨hsendable, hrow, hselects⟩ := (db.mem_countedRows table).mp hrow
    rw [selects, given_some hne, Bool.and_eq_true] at hselects
    refine ⟨hrow, hselects.1, ?_⟩
    rcases h with hplain | hunstorable
    · exact (db.matchesSearch_iff hplain hne row).mp hselects.2
    · exact absurd (hsendable.2.2 search (given_some hne)) hunstorable

/-- The list is always the first of the rows that are counted. They are compared literally exactly
where no character of the search is a sign of `LIKE`, or the database cannot take the search. -/
theorem search_literal_iff [LinearOrder κ] {search : Text} (hne : search ≠ []) :
    (∀ (table : SecurityTable) (markets sectors : Option (List Text)) (limit : Int),
      limit < 2 ^ 63 →
        db.countSecurities table markets sectors (some search) =
            .ok (db.countedRows table markets sectors (some search)).length ∧
          ∃ rows items, Ranking.IsFirst (fun row => db.collate row.ticker) limit.toNat rows
              (db.countedRows table markets sectors (some search)) ∧
            rows.mapM db.rowToSecurity = .ok items ∧
            db.listSecurities table markets sectors (some search) limit = .ok items) ∧
      (db.ComparesLiterally search ↔ sqlWildcards.IsPlain search ∨ ¬ Storable search) := by
  refine ⟨?_, db.comparesLiterally_iff hne⟩
  intro table markets sectors limit hlimit
  exact db.answers_agree table markets sectors (some search) hlimit

/-! ### A per cent sign -/

theorem ascii_toLower_cases (c : Nat) :
    (65 ≤ c ∧ c ≤ 90 ∧ CaseTable.ascii.toLower c = [c + 32]) ∨
      ¬ (65 ≤ c ∧ c ≤ 90) ∧ CaseTable.ascii.toLower c = [c] := by
  by_cases h : 65 ≤ c ∧ c ≤ 90
  · exact .inl ⟨h.1, h.2, if_pos h⟩
  · exact .inr ⟨h, if_neg h⟩

theorem ascii_toLower_plain (c : Nat) (h : ¬ sqlWildcards.IsSign c) :
    sqlWildcards.IsPlain (CaseTable.ascii.toLower c) := by
  obtain ⟨hlow, hhigh, hlower⟩ | ⟨-, hlower⟩ := ascii_toLower_cases c
  · rw [hlower, Wildcards.IsPlain, List.forall_mem_singleton]
    rintro (h37 | h95 | h92)
    · exact absurd h37 (by change c + 32 ≠ 37; omega)
    · exact absurd h95 (by change c + 32 ≠ 95; omega)
    · exact absurd h92 (by change c + 32 ≠ 92; omega)
  · rw [hlower]
    exact List.forall_mem_singleton.mpr h

theorem ascii_toLower_storable (c : Nat) (h : Storable [c]) :
    Storable (CaseTable.ascii.toLower c) := by
  obtain ⟨hlow, hhigh, hlower⟩ | ⟨-, hlower⟩ := ascii_toLower_cases c
  · rw [hlower]
    refine ⟨List.forall_mem_singleton.mpr (.inl (by omega)), ?_⟩
    rw [List.mem_singleton]
    omega
  · rw [hlower]
    exact h

theorem ascii_toLower_lower (c : Nat) :
    ∀ d ∈ CaseTable.ascii.toLower c, CaseTable.ascii.toLower d = [d] := by
  obtain ⟨hlow, hhigh, hlower⟩ | ⟨hother, hlower⟩ := ascii_toLower_cases c
  · rw [hlower, List.forall_mem_singleton]
    exact if_neg (by omega)
  · rw [hlower, List.forall_mem_singleton]
    exact hlower

theorem ascii_toLower_sign (c : Nat) (h : sqlWildcards.IsSign c) :
    CaseTable.ascii.toLower c = [c] := by
  rcases h with rfl | rfl | rfl
  · rfl
  · rfl
  · rfl

/-- `upper` on the ASCII letters. -/
def asciiUpper (s : Text) : Text := s.map fun c => if 97 ≤ c ∧ c ≤ 122 then c - 32 else c

theorem asciiUpper_storable (s : Text) (h : Storable s) : Storable (asciiUpper s) := by
  refine storable_of_mem fun d hd => ?_
  obtain ⟨c, hc, rfl⟩ := List.mem_map.mp hd
  split
  · refine ⟨List.forall_mem_singleton.mpr (.inl (by omega)), ?_⟩
    rw [List.mem_singleton]
    omega
  · exact h.of_mem hc

/-- A database of ASCII letters that orders tickers by their code points. -/
def ascii : SearchDatabase Text where
  toCaseTable := CaseTable.ascii
  upper := asciiUpper
  printable c := 32 ≤ c && c < 127
  sqlLower := CaseTable.ascii.toLower
  collate := id
  toLower_plain := ascii_toLower_plain
  toLower_storable := ascii_toLower_storable
  upper_storable := asciiUpper_storable
  sqlLower_lower := ascii_toLower_lower
  sqlLower_sign := ascii_toLower_sign
  sqlLower_plain := ascii_toLower_plain
  sqlLower_storable := ascii_toLower_storable

def apple : SecurityRow where
  ticker := text "AAPL"
  nameKo := none
  nameEn := some (text "Apple Inc.")
  aliases := [text "Apple"]
  market := text "NASDAQ"
  sector := text "TECH"
  sectorLabel := text "Tech"
  currency := text "USD"
  sharesOutstanding := none
  marketCap := none
  isSubscribed := false
  dataSource := text "static_master"
  updatedAt := ⟨sampleDate, Time.midnight⟩

theorem apple_storable : ∀ s ∈ apple.texts, Storable s := by decide

theorem nasdaq_checked : apple.market ∈ Market.members.map Market.value := by decide

def appleTable : SecurityTable where
  rows := [apple]
  keys_nodup := List.nodup_singleton _
  storable := List.forall_mem_singleton.mpr apple_storable
  market_check := List.forall_mem_singleton.mpr nasdaq_checked

/-- A per cent sign finds a row that holds none. -/
theorem percent_finds_apple :
    apple ∈ ascii.countedRows appleTable none none (some (text "%")) ∧
      ¬ ascii.FindsLiterally (text "%") apple := by
  refine ⟨(ascii.mem_countedRows appleTable).mpr ?_, ?_⟩
  · exact ⟨by decide, List.mem_singleton_self _, by decide⟩
  rintro (hticker | ⟨name, hname | hname, hinfix⟩ | ⟨a, ha, halias⟩)
  · exact absurd hticker (by decide)
  · cases hname
  · cases hname
    exact absurd hinfix (by decide)
  · rw [List.mem_singleton.mp ha] at halias
    exact absurd halias (by decide)

theorem search_literal_percent : ¬ ascii.ComparesLiterally (text "%") := by
  rw [(@search_literal_iff _ ascii _ (text "%") (by decide)).2]
  decide

end SearchDatabase

end NexusBackend
