import NexusBackend.Universe.Retention

/-!
What `build_real_universe` keeps of a row of the seed: its aliases, its market cap and the other
values it knew.

A subscribed row is taken over with new figures, and a row that no table lists as it is. Any other
row is built anew, by the block of its table. Estimates come last, where a cap is missing.
-/
namespace NexusBackend

open Python KeyedTable

/-- The ticker is in one of the Korean tables. -/
def IsKorean (ticker : Text) : Prop := ticker ∈ krEntries.map Prod.fst

/-- The ticker is in a table of an index. -/
def IsListed (sp500 nq100 : List WikiRow) (ticker : Text) : Prop :=
  IsKorean ticker ∨ ticker ∈ (usEntries sp500 nq100).map Prod.fst

/-- What `yfinance` has answered for the listing of a ticker. -/
def answerFor (sp500 nq100 : List WikiRow) (krYf usYf : YahooFinance) (ticker : Text) :
    Option YahooInfo :=
  (Json.get? krEntries ticker).elim (Json.get? (usYahoo usYf (usEntries sp500 nq100)) ticker)
    fun e => Json.get? (krYahoo krYf) (yahooSymbol ticker e.market)

/-! ### One row -/

/-- The row is the old one but for what the answer supplies. -/
structure TakenOver (info : Option YahooInfo) (r p : Security) : Prop where
  aliases : p.aliases = r.aliases
  nameKo : p.nameKo = r.nameKo
  marketCap : capOf info = none → p.marketCap = r.marketCap
  shares : sharesOf info = none → p.sharesOutstanding = r.sharesOutstanding

/-- The row has the figures of the answer and no others. -/
structure BuiltAnew (info : Option YahooInfo) (p : Security) : Prop where
  marketCap : capOf info = none → p.marketCap = none
  shares : sharesOf info = none → p.sharesOutstanding = none

theorem floatCap_none {cap newCap : Option Number} (h : floatCap cap = .ok newCap)
    (hcap : cap = none) : newCap = none := by
  rw [hcap] at h
  cases h
  rfl

theorem intShares_none {shares newShares : Option Number} (h : intShares shares = .ok newShares)
    (hshares : shares = none) : newShares = none := by
  rw [hshares] at h
  cases h
  rfl

theorem FromSeed.takenOver {info : Option YahooInfo} {r p : Security} (h : FromSeed info r p) :
    TakenOver info r p where
  aliases := h.aliases
  nameKo := h.nameKo
  marketCap := by
    intro hnone
    obtain ⟨cap, hcap, hkept⟩ := h.marketCap
    rw [hkept, floatCap_none hcap hnone, Option.none_or]
  shares := by
    intro hnone
    obtain ⟨shares, hshares, hkept⟩ := h.shares
    rw [hkept, intShares_none hshares hnone, Option.none_or]

theorem FromListing.builtAnew {info : Option YahooInfo} {ticker : Text} {p : Security}
    (h : FromListing info ticker p) : BuiltAnew info p where
  marketCap := floatCap_none h.marketCap
  shares := intShares_none h.shares

section
variable {existing : List (Text × Security)} {yahoo : List (Text × YahooInfo)} {ticker : Text}
  {r p : Security}

/-- The row of a Korean listing, by the subscription of the seed's row. -/
theorem krRow_of_held {e : KrListing} (hr : Json.get? existing ticker = some r)
    (h : krRow existing yahoo (ticker, e) = .ok (some p)) :
    (r.isSubscribed = true ∧ TakenOver (Json.get? yahoo (yahooSymbol ticker e.market)) r p) ∨
      r.isSubscribed = false ∧ BuiltAnew (Json.get? yahoo (yahooSymbol ticker e.market)) p ∧
        p.aliases = r.aliases ∧ p.nameKo = some e.nameKo := by
  rcases krRow_cases h with ⟨old, hold, hseed⟩ | ⟨hold, hlisting, haliases, hname, -⟩
  · rw [hr, Option.filter_eq_some_iff] at hold
    obtain ⟨heq, hsubscribed⟩ := hold
    cases heq
    exact .inl ⟨hsubscribed, hseed.takenOver⟩
  · rw [hr, Option.filter_eq_none_iff] at hold
    rw [hr] at haliases
    exact .inr ⟨Bool.eq_false_iff.mpr (hold r rfl), hlisting.builtAnew, haliases, hname⟩

/-- The same for a listing of the indexes. -/
theorem usRow_of_held {wiki : WikiRow} (hr : Json.get? existing ticker = some r)
    (h : usRow existing yahoo (ticker, wiki) = .ok p) :
    (r.isSubscribed = true ∧ TakenOver (Json.get? yahoo ticker) r p) ∨
      r.isSubscribed = false ∧ BuiltAnew (Json.get? yahoo ticker) p ∧ p.aliases = [ticker] ∧
        p.nameKo = none := by
  rcases usRow_cases h with ⟨old, hold, hseed⟩ | ⟨hold, hlisting, haliases, hname, -⟩
  · rw [hr, Option.filter_eq_some_iff] at hold
    obtain ⟨heq, hsubscribed⟩ := hold
    cases heq
    exact .inl ⟨hsubscribed, hseed.takenOver⟩
  · rw [hr, Option.filter_eq_none_iff] at hold
    exact .inr ⟨Bool.eq_false_iff.mpr (hold r rfl), hlisting.builtAnew, haliases, hname⟩

end

/-! ### The rows of all blocks -/

theorem listing_named : ∀ e ∈ ListingTables.kospiFull ++ ListingTables.kosdaqFull,
    e.nameEn ≠ "" := by
  decide +kernel

/-- No Korean listing is skipped: each has an English name. -/
theorem krEntries_named {p : Text × KrListing} (h : p ∈ krEntries) : p.2.nameEn ≠ [] := by
  obtain ⟨e, he, market, -, rfl⟩ := mem_krEntries h
  intro hempty
  have hnil : e.nameEn.toList = [] := List.map_eq_nil_iff.mp hempty
  exact listing_named e he (String.toList_eq_nil_iff.mp hnil)

theorem existingRows_keyed {securities : List Security} {p : Text × Security}
    (h : p ∈ existingRows securities) : p.1 = p.2.ticker := by
  rcases keys_foldl_setKey (f := fun s : Security => (s.ticker, s)) h with h | ⟨s, -, rfl⟩
  · cases h
  · rfl

theorem get?_existingRows {securities : List Security} {ticker : Text} {old : Security}
    (h : Json.get? (existingRows securities) ticker = some old) : old.ticker = ticker :=
  (existingRows_keyed (Json.mem_of_get? h)).symm

/-- The rows of the seed that are looked up are those of the dictionary, in its order. -/
theorem find?_existingRows {securities : List Security} {ticker : Text} {old : Security}
    (h : Json.get? (existingRows securities) ticker = some old) :
    ((existingRows securities).map Prod.snd).find? (fun s => s.ticker = ticker) = some old := by
  obtain ⟨p, hfind, rfl⟩ := Option.map_eq_some_iff.mp h
  obtain ⟨hkey, before, behind, hsplit, hbefore⟩ := List.find?_eq_some_iff_append.mp hfind
  have hkeyed (q : Text × Security) (hq : q ∈ before ++ p :: behind) : q.1 = q.2.ticker :=
    existingRows_keyed (hsplit ▸ hq)
  rw [hsplit, List.map_append, List.map_cons]
  refine List.find?_eq_some_iff_append.mpr
    ⟨?_, before.map Prod.snd, behind.map Prod.snd, rfl, ?_⟩
  · rw [← hkeyed p (List.mem_append_right _ List.mem_cons_self)]
    exact hkey
  · intro s hs
    obtain ⟨q, hq, rfl⟩ := List.mem_map.mp hs
    rw [← hkeyed q (List.mem_append_left _ hq)]
    exact hbefore q hq

theorem krRow_ticker {securities : List Security} {yahoo : List (Text × YahooInfo)}
    {entry : Text × KrListing} {row : Security}
    (h : krRow (existingRows securities) yahoo entry = .ok (some row)) :
    entry.1 = row.ticker := by
  rcases krRow_cases h with ⟨old, hold, hseed⟩ | ⟨-, hlisting, -⟩
  · rw [hseed.ticker]
    exact (get?_existingRows (Option.filter_eq_some_iff.mp hold).1).symm
  · exact hlisting.ticker.symm

theorem usRow_ticker {securities : List Security} {yahoo : List (Text × YahooInfo)}
    {entry : Text × WikiRow} {row : Security}
    (h : usRow (existingRows securities) yahoo entry = .ok row) : entry.1 = row.ticker := by
  rcases usRow_cases h with ⟨old, hold, hseed⟩ | ⟨-, hlisting, -⟩
  · rw [hseed.ticker]
    exact (get?_existingRows (Option.filter_eq_some_iff.mp hold).1).symm
  · exact hlisting.ticker.symm

theorem krRow_isSome {existing : List (Text × Security)} {yahoo : List (Text × YahooInfo)}
    {entry : Text × KrListing} (hentry : entry ∈ krEntries) {o : Option Security}
    (h : krRow existing yahoo entry = .ok o) : ∃ row, o = some row := by
  have hnamed := krEntries_named hentry
  obtain ⟨ticker, e⟩ := entry
  simp only [krRow] at h
  split at h
  · obtain ⟨new, -, h⟩ := bind_eq_ok_iff.mp h
    cases h
    exact ⟨_, rfl⟩
  · rw [if_neg fun hskip => hnamed hskip.2] at h
    obtain ⟨shares, -, h⟩ := bind_eq_ok_iff.mp h
    obtain ⟨cap, -, h⟩ := bind_eq_ok_iff.mp h
    cases h
    exact ⟨_, rfl⟩

theorem forall₂_reduceOption {α β : Type*} {R : α → Option β → Prop} {xs : List α}
    {os : List (Option β)} (h : List.Forall₂ R xs os)
    (hsome : ∀ x ∈ xs, ∀ o, R x o → ∃ y, o = some y) :
    List.Forall₂ (fun x y => R x (some y)) xs os.reduceOption := by
  induction h with
  | nil => exact .nil
  | cons hx hxs ih =>
      obtain ⟨y, rfl⟩ := hsome _ List.mem_cons_self _ hx
      rw [List.reduceOption_cons_of_some]
      exact .cons hx (ih fun x hx' => hsome x (List.mem_cons_of_mem _ hx'))

/-- The rows in the order in which they are offered: of the Korean tables, of the indexes, and what
the seed has beside its placeholders. -/
theorem realRows_eq {securities : List Security} {sp500 nq100 : List WikiRow}
    {krYf usYf : YahooFinance} {rows : List Security}
    (h : realRows securities sp500 nq100 krYf usYf = .ok rows) :
    ∃ kr us : List Security,
      List.Forall₂ (fun entry row => krRow (existingRows securities) (krYahoo krYf) entry =
        .ok (some row)) krEntries kr ∧
      List.Forall₂ (fun entry row => usRow (existingRows securities)
        (usYahoo usYf (usEntries sp500 nq100)) entry = .ok row) (usEntries sp500 nq100) us ∧
      rows = Security.merge [] (kr ++ us ++ ((existingRows securities).map Prod.snd).filter
        fun row => !decide row.IsPadding) := by
  obtain ⟨options, us, hkr, hus, rfl⟩ := realRows_blocks h
  refine ⟨options.reduceOption, us, ?_, mapM_eq_ok_iff.mp hus, ?_⟩
  · exact forall₂_reduceOption (mapM_eq_ok_iff.mp hkr) fun entry hentry _ => krRow_isSome hentry
  · simp only [Security.merge, addAllNew_append]

/-- The first row of a ticker is that of its listing, where it has one. -/
theorem get?_listing {α : Type} {R : Text × α → Security → Prop} {entries : List (Text × α)}
    {rows : List Security} (h : List.Forall₂ R entries rows)
    (hkey : ∀ entry row, R entry row → entry.1 = row.ticker) (ticker : Text) :
    (∃ e row, Json.get? entries ticker = some e ∧ R (ticker, e) row ∧
        rows.find? (fun row => row.ticker = ticker) = some row) ∨
      Json.get? entries ticker = none ∧ rows.find? (fun row => row.ticker = ticker) = none := by
  have hfind := rel_find? h (f := fun entry => entry.1 = ticker)
    (g := fun row => row.ticker = ticker)
    fun entry row hR => congrArg (fun t => decide (t = ticker)) (hkey entry row hR)
  rw [Json.get?]
  cases hentry : entries.find? fun entry => entry.1 = ticker with
  | none =>
      rw [hentry] at hfind
      cases hrow : rows.find? fun row => row.ticker = ticker with
      | none => exact .inr ⟨rfl, rfl⟩
      | some row =>
          rw [hrow] at hfind
          cases hfind
  | some entry =>
      have hticker : entry.1 = ticker := by simpa using List.find?_some hentry
      rw [hentry] at hfind
      cases hrow : rows.find? fun row => row.ticker = ticker with
      | none =>
          rw [hrow] at hfind
          cases hfind
      | some row =>
          rw [hrow] at hfind
          cases hfind with
          | some hR =>
              obtain ⟨key, e⟩ := entry
              cases hticker
              exact .inl ⟨e, row, rfl, hR, rfl⟩

/-- How the row of a seed's row has come about. -/
inductive Enriched (sp500 nq100 : List WikiRow) (info : Option YahooInfo) (r p : Security) : Prop
  | takenOver (held : r.isSubscribed = true ∨ ¬ IsListed sp500 nq100 r.ticker)
      (same : TakenOver info r p)
  | korean (open' : r.isSubscribed = false) (listed : IsKorean r.ticker)
      (new : BuiltAnew info p) (aliases : p.aliases = r.aliases) (nameKo : p.nameKo ≠ none)
  | american (open' : r.isSubscribed = false) (unlisted : ¬ IsKorean r.ticker)
      (listed : IsListed sp500 nq100 r.ticker) (new : BuiltAnew info p)
      (aliases : p.aliases = [r.ticker]) (nameKo : p.nameKo = none)

section
variable {securities : List Security} {sp500 nq100 : List WikiRow} {krYf usYf : YahooFinance}
  {r : Security}

theorem answerFor_of_korean {ticker : Text} {e : KrListing}
    (h : Json.get? krEntries ticker = some e) :
    answerFor sp500 nq100 krYf usYf ticker =
      Json.get? (krYahoo krYf) (yahooSymbol ticker e.market) := by
  rw [answerFor, h, Option.elim]

theorem answerFor_of_not_korean {ticker : Text} (h : Json.get? krEntries ticker = none) :
    answerFor sp500 nq100 krYf usYf ticker =
      Json.get? (usYahoo usYf (usEntries sp500 nq100)) ticker := by
  rw [answerFor, h, Option.elim]

/-- The first row that is offered under the ticker of a seed's row. -/
theorem offered_enriched (hr : Json.get? (existingRows securities) r.ticker = some r)
    (hreal : ¬ r.IsPadding) {kr us : List Security}
    (hkr : List.Forall₂ (fun entry row => krRow (existingRows securities) (krYahoo krYf) entry =
      .ok (some row)) krEntries kr)
    (hus : List.Forall₂ (fun entry row => usRow (existingRows securities)
      (usYahoo usYf (usEntries sp500 nq100)) entry = .ok row) (usEntries sp500 nq100) us) :
    ∃ p, (kr ++ us ++ ((existingRows securities).map Prod.snd).filter
        fun row => !decide row.IsPadding).find? (fun row => row.ticker = r.ticker) = some p ∧
      Enriched sp500 nq100 (answerFor sp500 nq100 krYf usYf r.ticker) r p := by
  rw [List.find?_append, List.find?_append]
  rcases get?_listing hkr (fun _ _ => krRow_ticker) r.ticker with
    ⟨e, p, hlisting, hrow, hfind⟩ | ⟨hkorean, hfind⟩
  · have hlisted : IsKorean r.ticker := by
      by_contra hnot
      exact absurd (hlisting.symm.trans (Json.get?_eq_none_iff.mpr hnot)) nofun
    rw [hfind, answerFor_of_korean hlisting, Option.some_or, Option.some_or]
    refine ⟨p, rfl, ?_⟩
    rcases krRow_of_held hr hrow with ⟨hsubscribed, hsame⟩ | ⟨hopen, hnew, haliases, hname⟩
    · exact .takenOver (.inl hsubscribed) hsame
    · refine .korean hopen hlisted hnew haliases ?_
      rw [hname]
      exact Option.some_ne_none _
  · have hunlisted : ¬ IsKorean r.ticker := Json.get?_eq_none_iff.mp hkorean
    rw [hfind, answerFor_of_not_korean hkorean, Option.none_or]
    rcases get?_listing hus (fun _ _ => usRow_ticker) r.ticker with
      ⟨wiki, p, hlisting, hrow, hfind⟩ | ⟨hus, hfind⟩
    · have hlisted : IsListed sp500 nq100 r.ticker := by
        refine .inr ?_
        by_contra hnot
        exact absurd (hlisting.symm.trans (Json.get?_eq_none_iff.mpr hnot)) nofun
      rw [hfind, Option.some_or]
      refine ⟨p, rfl, ?_⟩
      rcases usRow_of_held hr hrow with ⟨hsubscribed, hsame⟩ | ⟨hopen, hnew, haliases, hname⟩
      · exact .takenOver (.inl hsubscribed) hsame
      · exact .american hopen hunlisted hlisted hnew haliases hname
    · have hheld : ¬ IsListed sp500 nq100 r.ticker :=
        fun h => h.elim hunlisted (Json.get?_eq_none_iff.mp hus)
      rw [hfind, Option.none_or]
      refine ⟨r, find?_filter_of_find? (find?_existingRows hr) (by simpa using hreal), ?_⟩
      exact .takenOver (.inr hheld) ⟨rfl, rfl, fun _ => rfl, fun _ => rfl⟩

theorem realRows_enriched (hr : Json.get? (existingRows securities) r.ticker = some r)
    (hreal : ¬ r.IsPadding) {rows : List Security}
    (h : realRows securities sp500 nq100 krYf usYf = .ok rows) :
    (rows.map Security.ticker).Nodup ∧ ∃ p ∈ rows, p.ticker = r.ticker ∧
      Enriched sp500 nq100 (answerFor sp500 nq100 krYf usYf r.ticker) r p := by
  obtain ⟨kr, us, hkr, hus, rfl⟩ := realRows_eq h
  obtain ⟨p, hfind, henriched⟩ := offered_enriched hr hreal hkr hus
  have hempty : (([] : List Security).map Security.ticker).Nodup := List.nodup_nil
  have hticker : p.ticker = r.ticker := by simpa using List.find?_some hfind
  refine ⟨nodup_addAllNew hempty _, p, ?_, hticker, henriched⟩
  rw [← List.nil_append (kr ++ us ++ _), ← find?_addAllNew] at hfind
  exact List.mem_of_find?_eq_some hfind

end

/-! ### What is lost -/

/-- A row keeps the aliases of the old one, and its market cap where the answer has none. -/
structure KeepsCurated (info : Option YahooInfo) (r q : Security) : Prop where
  aliases : ∀ a ∈ r.aliases, a ∈ q.aliases
  marketCap : capOf info = none → ∀ cap, r.marketCap = some cap → q.marketCap = some cap

/-- The row is not built anew, or it is with a new cap for the one it had, and by the Korean block
where it has aliases beside its ticker. -/
def Survives (sp500 nq100 : List WikiRow) (info : Option YahooInfo) (r : Security) : Prop :=
  r.isSubscribed = true ∨ ¬ IsListed sp500 nq100 r.ticker ∨
    (r.marketCap = none ∨ capOf info ≠ none) ∧
      (IsKorean r.ticker ∨ ∀ a ∈ r.aliases, a = r.ticker)

/-- The share count of the old row stays where the answer has none. -/
def KeepsShares (info : Option YahooInfo) (r q : Security) : Prop :=
  sharesOf info = none → ∀ n, r.sharesOutstanding = some n → q.sharesOutstanding = some n

section
variable {sp500 nq100 : List WikiRow} {info : Option YahooInfo} {r p : Security}

theorem BuiltAnew.marketCap_iff (h : BuiltAnew info p) :
    (capOf info = none → ∀ cap, r.marketCap = some cap → p.marketCap = some cap) ↔
      r.marketCap = none ∨ capOf info ≠ none := by
  by_cases hinfo : capOf info = none
  · rw [or_iff_left (not_not_intro hinfo), h.marketCap hinfo]
    constructor
    · intro hkeeps
      cases hcap : r.marketCap with
      | none => rfl
      | some cap => cases hkeeps hinfo cap hcap
    · intro hnone _ cap hcap
      cases hnone.symm.trans hcap
  · exact iff_of_true (fun h => absurd h hinfo) (.inr hinfo)

theorem BuiltAnew.keepsShares_iff (h : BuiltAnew info p) :
    KeepsShares info r p ↔ r.sharesOutstanding = none ∨ sharesOf info ≠ none := by
  by_cases hinfo : sharesOf info = none
  · rw [or_iff_left (not_not_intro hinfo), KeepsShares, h.shares hinfo]
    constructor
    · intro hkeeps
      cases hshares : r.sharesOutstanding with
      | none => rfl
      | some n => cases hkeeps hinfo n hshares
    · intro hnone _ n hn
      cases hnone.symm.trans hn
  · exact iff_of_true (fun h => absurd h hinfo) (.inr hinfo)

theorem TakenOver.keepsCurated (h : TakenOver info r p) : KeepsCurated info r p := by
  refine ⟨fun a ha => ?_, fun hinfo cap hcap => ?_⟩
  · rw [h.aliases]
    exact ha
  · rw [h.marketCap hinfo]
    exact hcap

theorem Enriched.keepsCurated_iff (h : Enriched sp500 nq100 info r p) :
    KeepsCurated info r p ↔ Survives sp500 nq100 info r := by
  rw [Survives]
  cases h with
  | takenOver held same =>
      refine iff_of_true same.keepsCurated ?_
      rcases held with held | held
      · exact .inl held
      · exact .inr (.inl held)
  | korean open' listed new aliases nameKo =>
      rw [open', or_iff_right nofun, or_iff_right (not_not_intro (.inl listed)),
        and_iff_left (.inl listed), ← new.marketCap_iff]
      refine ⟨KeepsCurated.marketCap, fun hcap => ⟨fun a ha => ?_, hcap⟩⟩
      rw [aliases]
      exact ha
  | american open' unlisted listed new aliases nameKo =>
      rw [open', or_iff_right nofun, or_iff_right (not_not_intro listed),
        or_iff_right unlisted, ← new.marketCap_iff]
      constructor
      · intro hkeeps
        refine ⟨hkeeps.marketCap, fun a ha => ?_⟩
        have hmem := hkeeps.aliases a ha
        rw [aliases] at hmem
        exact List.mem_singleton.mp hmem
      · rintro ⟨hcap, haliases⟩
        refine ⟨fun a ha => ?_, hcap⟩
        rw [aliases, haliases a ha]
        exact List.mem_singleton_self _

theorem Enriched.keepsShares_iff (h : Enriched sp500 nq100 info r p) :
    KeepsShares info r p ↔ r.isSubscribed = true ∨ ¬ IsListed sp500 nq100 r.ticker ∨
      r.sharesOutstanding = none ∨ sharesOf info ≠ none := by
  cases h with
  | takenOver held same =>
      refine iff_of_true (fun hinfo n hn => (same.shares hinfo).trans hn) ?_
      rcases held with held | held
      · exact .inl held
      · exact .inr (.inl held)
  | korean open' listed new aliases nameKo =>
      rw [open', or_iff_right nofun, or_iff_right (not_not_intro (.inl listed))]
      exact new.keepsShares_iff
  | american open' unlisted listed new aliases nameKo =>
      rw [open', or_iff_right nofun, or_iff_right (not_not_intro listed)]
      exact new.keepsShares_iff

theorem Enriched.keepsNameKo_iff (h : Enriched sp500 nq100 info r p) :
    (r.nameKo ≠ none → p.nameKo ≠ none) ↔ r.isSubscribed = true ∨
      ¬ IsListed sp500 nq100 r.ticker ∨ IsKorean r.ticker ∨ r.nameKo = none := by
  cases h with
  | takenOver held same =>
      rw [same.nameKo]
      refine iff_of_true id ?_
      rcases held with held | held
      · exact .inl held
      · exact .inr (.inl held)
  | korean open' listed new aliases nameKo =>
      exact iff_of_true (fun _ => nameKo) (.inr (.inr (.inl listed)))
  | american open' unlisted listed new aliases nameKo =>
      rw [open', or_iff_right nofun, or_iff_right (not_not_intro listed), or_iff_right unlisted,
        nameKo]
      exact ⟨fun hkeeps => not_not.mp fun hne => hkeeps hne rfl, fun hnone hne => absurd hnone hne⟩

end

/-! ### Behind the estimates -/

theorem estimate_of_cap {caps : List (Text × Text × Python.Float)} {s : Security}
    (h : s.marketCap ≠ none) : s.estimate caps = s := by
  rw [Security.estimate, if_pos (.inl h)]

theorem estimate_frame (caps : List (Text × Text × Python.Float)) (s : Security) :
    (s.estimate caps).aliases = s.aliases ∧ (s.estimate caps).nameKo = s.nameKo ∧
      (s.estimate caps).sharesOutstanding = s.sharesOutstanding := by
  rw [Security.estimate]
  split
  · exact ⟨rfl, rfl, rfl⟩
  · split
    · exact ⟨rfl, rfl, rfl⟩
    · exact ⟨rfl, rfl, rfl⟩

/-- Known caps are not estimated. -/
theorem KeepsCurated.estimate {info : Option YahooInfo} {r p : Security}
    (h : KeepsCurated info r p) (caps : List (Text × Text × Python.Float)) :
    KeepsCurated info r (p.estimate caps) := by
  refine ⟨fun a ha => ?_, fun hinfo cap hcap => ?_⟩
  · rw [(estimate_frame caps p).1]
    exact h.aliases a ha
  · have hkept := h.marketCap hinfo cap hcap
    rw [estimate_of_cap (by rw [hkept]; exact Option.some_ne_none _)]
    exact hkept

/-- What comes out are the rows of the tables behind the estimates. -/
theorem buildRealUniverse_rows {file : Option Seed} {sp500 nq100 : List WikiRow}
    {krYf usYf : YahooFinance} {out : Seed}
    (h : buildRealUniverse file sp500 nq100 krYf usYf = .ok out) :
    ∃ rows caps, realRows (Seed.load file).securities sp500 nq100 krYf usYf = .ok rows ∧
      out.securities = rows.map (Security.estimate caps) := by
  simp only [buildRealUniverse] at h
  obtain ⟨rows, hrows, h⟩ := bind_eq_ok_iff.mp h
  obtain ⟨estimated, hestimated, h⟩ := bind_eq_ok_iff.mp h
  obtain ⟨caps, -, hmap⟩ := bind_eq_ok_iff.mp hestimated
  cases h
  cases hmap
  exact ⟨rows, caps, hrows, rfl⟩

/-- What comes out for a row of the seed, and the row that the tables leave to the estimates: when
both keep the aliases and the cap, when the share count stays, and when a Korean name does. -/
theorem buildRealUniverse_preserves_iff {file : Option Seed} {sp500 nq100 : List WikiRow}
    {krYf usYf : YahooFinance} {out : Seed}
    (hout : buildRealUniverse file sp500 nq100 krYf usYf = .ok out) {r : Security}
    (hr : Json.get? (existingRows (Seed.load file).securities) r.ticker = some r)
    (hreal : ¬ r.IsPadding) :
    ∃ rows, realRows (Seed.load file).securities sp500 nq100 krYf usYf = .ok rows ∧
    ∃ p ∈ rows, p.ticker = r.ticker ∧ ∃ o ∈ out.securities, o.ticker = r.ticker ∧
      (∀ o' ∈ out.securities, o'.ticker = r.ticker → o' = o) ∧
      (KeepsCurated (answerFor sp500 nq100 krYf usYf r.ticker) r p ∧
          KeepsCurated (answerFor sp500 nq100 krYf usYf r.ticker) r o ↔
        Survives sp500 nq100 (answerFor sp500 nq100 krYf usYf r.ticker) r) ∧
      (KeepsShares (answerFor sp500 nq100 krYf usYf r.ticker) r o ↔
        r.isSubscribed = true ∨ ¬ IsListed sp500 nq100 r.ticker ∨ r.sharesOutstanding = none ∨
          sharesOf (answerFor sp500 nq100 krYf usYf r.ticker) ≠ none) ∧
      ((r.nameKo ≠ none → o.nameKo ≠ none) ↔
        r.isSubscribed = true ∨ ¬ IsListed sp500 nq100 r.ticker ∨ IsKorean r.ticker ∨
          r.nameKo = none) := by
  obtain ⟨rows, caps, hrows, hout⟩ := buildRealUniverse_rows hout
  obtain ⟨hnodup, p, hp, hticker, henriched⟩ := realRows_enriched hr hreal hrows
  have hkeys (s : Security) : (s.estimate caps).ticker = s.ticker := (estimate_spec caps s).1
  obtain ⟨-, hname, hshares⟩ := estimate_frame caps p
  rw [hout]
  refine ⟨rows, hrows, p, hp, hticker, p.estimate caps, List.mem_map_of_mem hp,
    (hkeys p).trans hticker, ?_, ?_, ?_, ?_⟩
  · intro o ho hkey
    obtain ⟨s, hs, rfl⟩ := List.mem_map.mp ho
    rw [hkeys] at hkey
    rw [List.inj_on_of_nodup_map hnodup hs hp (hkey.trans hticker.symm)]
  · rw [and_iff_left_of_imp fun h => h.estimate caps]
    exact henriched.keepsCurated_iff
  · rw [KeepsShares, hshares]
    exact henriched.keepsShares_iff
  · rw [hname]
    exact henriched.keepsNameKo_iff

/-! ### A listed row without an answer -/

/-- `yfinance` fails at every call. -/
def silentYahoo : YahooFinance := fun _ _ => raise .runtimeError

def curatedRow : Security where
  ticker := text "AAPL"
  nameKo := some (text "애플")
  nameEn := some (text "Apple Inc.")
  aliases := [text "AAPL", text "애플"]
  market := text "NASDAQ"
  sector := text "TECH_US"
  sectorLabel := text "Big Tech"
  currency := text "USD"
  sharesOutstanding := none
  marketCap := some (.float (.finite 5))
  isSubscribed := false
  dataSource := text "static_master"

def curatedSeed : Seed := ⟨3, [], [curatedRow], []⟩

def curatedListing : List WikiRow :=
  [⟨text "AAPL", text "Apple Inc.", text "Information Technology"⟩]

theorem batchFetch_silent (symbols : List Text) : batchFetch silentYahoo symbols = [] := by
  rw [batchFetch]
  generalize symbols.zipIdx = calls
  induction calls with
  | nil => rfl
  | cons _ calls ih => exact ih

theorem answerFor_silent (sp500 nq100 : List WikiRow) (ticker : Text) :
    answerFor sp500 nq100 silentYahoo silentYahoo ticker = none := by
  cases hkorean : Json.get? krEntries ticker with
  | some e =>
      rw [answerFor_of_korean hkorean, krYahoo, batchFetch_silent]
      rfl
  | none =>
      have hraw : usYahoo silentYahoo (usEntries sp500 nq100) = [] := by
        rw [usYahoo, batchFetch_silent]
        exact List.filterMap_eq_nil_iff.mpr fun _ _ => rfl
      rw [answerFor_of_not_korean hkorean, hraw]
      rfl

theorem listing_not_apple : ∀ e ∈ ListingTables.kospiFull ++ ListingTables.kosdaqFull,
    text e.ticker ≠ text "AAPL" := by
  decide +kernel

theorem curatedRow_not_korean : ¬ IsKorean curatedRow.ticker := by
  intro h
  obtain ⟨p, hp, hticker⟩ := List.mem_map.mp h
  obtain ⟨e, he, market, -, rfl⟩ := mem_krEntries hp
  exact listing_not_apple e he hticker

theorem silentYahoo_converts : AnswersConvert silentYahoo := by
  intro call symbol info h
  cases h

theorem curatedSeed_capReads {s : Security}
    (hs : s ∈ (Seed.load (some curatedSeed)).securities) : CapReads s := by
  intro x hx
  rw [List.mem_singleton.mp hs] at hx
  cases hx
  exact ⟨.finite 5, rfl⟩

theorem curatedSeed_unique : (Seed.load (some curatedSeed)).tickers.Nodup :=
  List.nodup_singleton _

theorem curatedSeed_built : ∃ out,
    buildRealUniverse (some curatedSeed) curatedListing [] silentYahoo silentYahoo = .ok out :=
  buildRealUniverse_total curatedSeed_unique (fun _ => curatedSeed_capReads) curatedListing []
    silentYahoo_converts silentYahoo_converts

theorem curatedRow_listed : IsListed curatedListing [] curatedRow.ticker :=
  .inr (List.mem_singleton_self _)

theorem curatedRow_held :
    Json.get? (existingRows (Seed.load (some curatedSeed)).securities) curatedRow.ticker =
      some curatedRow := rfl

theorem curatedRow_real : ¬ curatedRow.IsPadding := by decide

theorem curatedRow_rebuilt {rows : List Security} (h : realRows
    (Seed.load (some curatedSeed)).securities curatedListing [] silentYahoo silentYahoo =
      .ok rows) :
    ∃ p ∈ rows, p.ticker = curatedRow.ticker ∧ p.marketCap = none ∧
      p.aliases = [curatedRow.ticker] := by
  obtain ⟨-, p, hp, hticker, henriched⟩ := realRows_enriched curatedRow_held curatedRow_real h
  refine ⟨p, hp, hticker, ?_⟩
  cases henriched with
  | takenOver held same => exact held.elim (absurd · nofun) (absurd curatedRow_listed)
  | korean open' listed new aliases nameKo => exact absurd listed curatedRow_not_korean
  | american open' unlisted listed new aliases nameKo =>
      refine ⟨new.marketCap ?_, aliases⟩
      rw [answerFor_silent]
      rfl

/-- The cap is lost before the estimates, and the alias beside the ticker for good. -/
theorem buildRealUniverse_forgets : ∃ rows out p o,
    realRows curatedSeed.securities curatedListing [] silentYahoo silentYahoo = .ok rows ∧
    buildRealUniverse (some curatedSeed) curatedListing [] silentYahoo silentYahoo = .ok out ∧
    (p ∈ rows ∧ p.ticker = text "AAPL" ∧ p.marketCap = none) ∧
    (o ∈ out.securities ∧ o.ticker = text "AAPL" ∧ text "애플" ∉ o.aliases) := by
  obtain ⟨out, hout⟩ := curatedSeed_built
  obtain ⟨rows, caps, hrows, hsecurities⟩ := buildRealUniverse_rows hout
  obtain ⟨p, hp, hticker, hcap, haliases⟩ := curatedRow_rebuilt hrows
  have ho : p.estimate caps ∈ out.securities := hsecurities ▸ List.mem_map_of_mem hp
  refine ⟨rows, out, p, p.estimate caps, hrows, hout, ⟨hp, hticker, hcap⟩, ho,
    (estimate_spec caps p).1.trans hticker, ?_⟩
  rw [(estimate_frame caps p).1, haliases]
  decide

theorem buildRealUniverse_preserves_no_name : ∃ out,
    buildRealUniverse (some curatedSeed) curatedListing [] silentYahoo silentYahoo = .ok out ∧
      ∃ o ∈ out.securities, o.ticker = text "AAPL" ∧ o.nameKo = none := by
  obtain ⟨out, hout⟩ := curatedSeed_built
  obtain ⟨rows, -, p, -, -, o, ho, hticker, -, -, -, hname⟩ :=
    buildRealUniverse_preserves_iff hout curatedRow_held curatedRow_real
  refine ⟨out, hout, o, ho, hticker, ?_⟩
  by_contra hkept
  rcases hname.mp fun _ => hkept with h | h | h | h
  · cases h
  · exact h curatedRow_listed
  · exact curatedRow_not_korean h
  · cases h

end NexusBackend
