import NexusBackend.Library.ElementTree
import NexusBackend.Library.UrlEncoding

/-!
`GoogleNewsRSSProvider`: the URL of a symbol, and the headlines in what is answered there.

The reading of XML is a parameter, `parse`; it raises `ParseError`, or whatever else it may, on a
text that is no document. A request raises, or it is answered with a status and a text. Log
records are left out.
-/
namespace NexusBackend

open Python

/-! ### The URL -/

/-- `_SYMBOL_TO_QUERY`. -/
def symbolToQuery : List (Text × Text) :=
  [(text "005930", text "Samsung Electronics"), (text "000660", text "SK Hynix"),
    (text "035420", text "Naver Corp"), (text "035720", text "Kakao Corp"),
    (text "105560", text "KB Financial"), (text "055550", text "Shinhan Financial"),
    (text "086790", text "Hana Financial"), (text "005380", text "Hyundai Motor"),
    (text "005490", text "POSCO"), (text "051910", text "LG Chem"),
    (text "207940", text "Samsung Biologics"), (text "068270", text "Celltrion")]

def queryForSymbol (symbol : Text) : Text := (symbolToQuery.lookup symbol).getD symbol

/-- The language and the country of a feed; `_base_url` is that of the default. -/
structure GoogleNewsRssProvider where
  hl : Text
  gl : Text
  ceid : Text
deriving DecidableEq

def newsBaseUrl : Text := text "https://news.google.com/rss/search"

/-! ### The answer -/

/-- What becomes of the GET; `raises` is any exception but those of `httpx`. -/
inductive FeedAnswer
  | timeout
  | networkError
  | raises (e : Exn)
  | response (status : Nat) (body : Text)

def parseError : ExnKind := .named (text "ParseError")

/-- `"channel/item/title"`, `"item/title"` and `".//item/title"`. -/
def titlePaths : List (List Element.Step) :=
  [[.child (text "channel"), .child (text "item"), .child (text "title")],
    [.child (text "item"), .child (text "title")],
    [.descendant (text "item"), .child (text "title")]]

/-- The stripped text of an element that is not blank. -/
def titleText? (elem : Element) : Option Text :=
  let title := strip (elem.content.getD [])
  if title = [] then none else some title

def titlesOn (root : Element) (path : List Element.Step) : List Text :=
  (root.iterfind path).filterMap titleText?

/-- The loop over the paths, up to the first that has a title. -/
def firstTitles (root : Element) : List (List Element.Step) → List Text
  | [] => []
  | path :: paths =>
      let titles := titlesOn root path
      if titles ≠ [] then titles else firstTitles root paths

def parseRssTitles (parse : Text → Except Exn Element) (xmlText : Text) (maxHeadlines : Nat) :
    Except Exn (List Text) :=
  if strip xmlText = [] then .ok []
  else
    tryExcept ((fun root => (firstTitles root titlePaths).take maxHeadlines) <$> parse xmlText)
      [parseError] fun _ => .ok []

/-- `_MAX_HEADLINES`. -/
def maxHeadlines : Nat := 8

namespace GoogleNewsRssProvider

variable (p : GoogleNewsRssProvider)

def params (symbol : Text) : List (Text × Text) :=
  [(text "q", queryForSymbol symbol), (text "hl", p.hl), (text "gl", p.gl), (text "ceid", p.ceid)]

def buildUrl (symbol : Text) : Except Exn Text := do
  let query ← urlencode (p.params symbol)
  return newsBaseUrl ++ 63 :: query

/-- `recent_headlines`; `answer` is what the GET of a URL comes to. -/
def recentHeadlines (parse : Text → Except Exn Element) (answer : Text → FeedAnswer)
    (symbol : Text) : Except Exn (List Text) := do
  let url ← p.buildUrl symbol
  match answer url with
  | .timeout | .networkError => return []
  | .raises e => .error e
  | .response status body =>
      if 400 ≤ status then return [] else parseRssTitles parse body maxHeadlines

/-- The URL tells the language, the country and what is searched for. -/
theorem buildUrl_inj {p q : GoogleNewsRssProvider} {symbol other url : Text}
    (hp : p.buildUrl symbol = .ok url) (hq : q.buildUrl other = .ok url) :
    p = q ∧ queryForSymbol symbol = queryForSymbol other := by
  obtain ⟨query, hquery, hurl⟩ := bind_eq_ok_iff.mp hp
  obtain ⟨query', hquery', hurl'⟩ := bind_eq_ok_iff.mp hq
  have hsame : query = query' :=
    List.tail_eq_of_cons_eq (List.append_cancel_left ((Except.ok.inj hurl).trans
      (Except.ok.inj hurl').symm))
  subst hsame
  have hparams := urlencode_inj hquery hquery'
  simp only [params, List.cons.injEq, Prod.mk.injEq, true_and, and_true] at hparams
  obtain ⟨hsearched, hhl, hgl, hceid⟩ := hparams
  refine ⟨?_, hsearched⟩
  cases p
  cases q
  subst hhl hgl hceid
  rfl

end GoogleNewsRssProvider

/-! ### The headlines of a document -/

/-- The titles of all the items of a document, wherever they are. -/
def itemTitles (root : Element) : List Text :=
  titlesOn root [.descendant (text "item"), .child (text "title")]

/-- The document that an answer holds. -/
def FeedAnswer.document? (parse : Text → Except Exn Element) : FeedAnswer → Option Element
  | .response status body =>
      if 400 ≤ status ∨ strip body = [] then none else (parse body).toOption
  | _ => none

/-- The titles that an answer holds. -/
def FeedAnswer.titles (parse : Text → Except Exn Element) (answer : FeedAnswer) : List Text :=
  (answer.document? parse).elim [] itemTitles

/-- A few of the titles, in the order of the document, and none only if there are none. -/
structure Shortlist (limit : Nat) (headlines titles : List Text) : Prop where
  length : headlines.length ≤ limit
  sublist : headlines.Sublist titles
  nil_iff : headlines = [] ↔ titles = []

theorem mem_titlesOn {root : Element} {path : List Element.Step} {title : Text}
    (h : title ∈ titlesOn root path) : title ≠ [] ∧ IsTrimmed title := by
  obtain ⟨elem, -, htitle⟩ := List.mem_filterMap.mp h
  simp only [titleText?] at htitle
  split at htitle
  · cases htitle
  · rename_i hfilled
    cases htitle
    exact ⟨hfilled, isTrimmed_strip _⟩

theorem FeedAnswer.mem_titles {parse : Text → Except Exn Element} {answer : FeedAnswer}
    {title : Text} (h : title ∈ answer.titles parse) : title ≠ [] ∧ IsTrimmed title := by
  rw [FeedAnswer.titles] at h
  cases hdocument : answer.document? parse with
  | none =>
      rw [hdocument] at h
      cases h
  | some root =>
      rw [hdocument] at h
      exact mem_titlesOn h

/-- What is found on a path through fewer elements is found in the same order. -/
theorem titlesOn_concat_sublist {root : Element} {path path' : List Element.Step}
    (h : (root.iterfind path).Sublist (root.iterfind path')) (step : Element.Step) :
    (titlesOn root (path ++ [step])).Sublist (titlesOn root (path' ++ [step])) := by
  rw [titlesOn, titlesOn, Element.iterfind_concat, Element.iterfind_concat]
  exact (h.flatMap _).filterMap _

theorem titlesOn_sublist (root : Element) : ∀ path ∈ titlePaths,
    (titlesOn root path).Sublist (itemTitles root) := by
  have hitems : (root.iterfind [.child (text "item")]).Sublist
      (root.iterfind [.descendant (text "item")]) := by
    rw [Element.iterfind_single, Element.iterfind_single]
    exact Element.select_child_sublist root _
  have hchannels : (root.iterfind [.child (text "channel"), .child (text "item")]).Sublist
      (root.iterfind [.descendant (text "item")]) := by
    rw [Element.iterfind_single, ← List.singleton_append, Element.iterfind_concat,
      Element.iterfind_single]
    exact Element.select_grandchild_sublist root _ _
  intro path hpath
  simp only [titlePaths, List.mem_cons, List.not_mem_nil, or_false] at hpath
  rcases hpath with rfl | rfl | rfl
  · exact titlesOn_concat_sublist hchannels _
  · exact titlesOn_concat_sublist hitems _
  · exact List.Sublist.refl _

/-- The last path finds whatever there is. -/
theorem firstTitles_shortlist (root : Element) :
    (firstTitles root titlePaths).Sublist (itemTitles root) ∧
      (firstTitles root titlePaths = [] ↔ itemTitles root = []) := by
  have hloop (paths : List (List Element.Step)) (hpaths : ∀ path ∈ paths, path ∈ titlePaths) :
      (firstTitles root paths).Sublist (itemTitles root) ∧
        ((∃ path ∈ paths, titlesOn root path ≠ []) → firstTitles root paths ≠ []) := by
    induction paths with
    | nil =>
        refine ⟨List.nil_sublist _, ?_⟩
        rintro ⟨path, hpath, -⟩
        cases hpath
    | cons path paths ih =>
        obtain ⟨hsub, hfound⟩ := ih fun path hpath => hpaths path (List.mem_cons_of_mem _ hpath)
        simp only [firstTitles]
        split
        · rename_i htitles
          exact ⟨titlesOn_sublist root path (hpaths path List.mem_cons_self), fun _ => htitles⟩
        · rename_i htitles
          refine ⟨hsub, ?_⟩
          rintro ⟨path', hpath', hne⟩
          rcases List.mem_cons.mp hpath' with rfl | hpath'
          · exact absurd hne htitles
          · exact hfound ⟨path', hpath', hne⟩
  obtain ⟨hsub, hfound⟩ := hloop titlePaths fun _ => id
  refine ⟨hsub, ?_⟩
  constructor
  · intro hnil
    by_contra htitles
    exact hfound ⟨_, List.mem_cons_of_mem _ (List.mem_cons_of_mem _ List.mem_cons_self), htitles⟩
      hnil
  · intro htitles
    rw [htitles] at hsub
    exact List.sublist_nil.mp hsub

theorem Shortlist.take {headlines titles : List Text} (hsub : headlines.Sublist titles)
    (hnil : headlines = [] ↔ titles = []) {limit : Nat} (hlimit : 0 < limit) :
    Shortlist limit (headlines.take limit) titles where
  length := List.length_take_le _ _
  sublist := (List.take_sublist _ _).trans hsub
  nil_iff := by
    rw [List.take_eq_nil_iff, ← hnil]
    exact or_iff_right hlimit.ne'

theorem Shortlist.nil (limit : Nat) : Shortlist limit [] [] :=
  ⟨Nat.zero_le _, List.Sublist.refl _, Iff.rfl⟩

theorem parseRssTitles_ok {parse : Text → Except Exn Element} {xmlText : Text} {limit : Nat}
    (hlimit : 0 < limit) {headlines : List Text}
    (h : parseRssTitles parse xmlText limit = .ok headlines) {status : Nat}
    (hstatus : status < 400) :
    Shortlist limit headlines ((FeedAnswer.response status xmlText).titles parse) := by
  have hopen : ¬ 400 ≤ status := Nat.not_le.mpr hstatus
  rw [parseRssTitles] at h
  simp only [FeedAnswer.titles, FeedAnswer.document?]
  split at h
  · rename_i hblank
    cases h
    rw [if_pos (.inr hblank)]
    exact Shortlist.nil limit
  · rename_i hfilled
    rw [if_neg (not_or.mpr ⟨hopen, hfilled⟩)]
    cases hparse : parse xmlText with
    | ok root =>
        rw [hparse] at h
        cases h
        obtain ⟨hsub, hnil⟩ := firstTitles_shortlist root
        exact Shortlist.take hsub hnil hlimit
    | error e =>
        rw [hparse] at h
        change tryExcept (.error e) _ _ = _ at h
        cases hcaught : e.isInstance [parseError] with
        | true =>
            rw [tryExcept_caught _ hcaught] at h
            cases h
            exact Shortlist.nil limit
        | false =>
            rw [tryExcept_uncaught _ hcaught] at h
            cases h

theorem parseRssTitles_error_iff (parse : Text → Except Exn Element) (xmlText : Text) (limit : Nat)
    (e : Exn) :
    parseRssTitles parse xmlText limit = .error e ↔
      strip xmlText ≠ [] ∧ parse xmlText = .error e ∧ e.isInstance [parseError] = false := by
  rw [parseRssTitles]
  split
  · rename_i hblank
    exact ⟨nofun, fun h => absurd hblank h.1⟩
  · rename_i hfilled
    rw [and_iff_right hfilled]
    cases hparse : parse xmlText with
    | ok root => exact ⟨nofun, fun h => nomatch h.1⟩
    | error e' =>
        change tryExcept (.error e') _ _ = _ ↔ _
        cases hcaught : e'.isInstance [parseError] with
        | true =>
            rw [tryExcept_caught _ hcaught]
            refine ⟨nofun, ?_⟩
            rintro ⟨heq, hnot⟩
            rw [← Except.error.inj heq, hcaught] at hnot
            cases hnot
        | false =>
            rw [tryExcept_uncaught _ hcaught]
            constructor
            · intro h
              cases h
              exact ⟨rfl, hcaught⟩
            · rintro ⟨heq, -⟩
              exact congrArg _ (Except.error.inj heq)

/-- The exceptions that an answer brings about. -/
def FeedAnswer.Fails (parse : Text → Except Exn Element) (e : Exn) : FeedAnswer → Prop
  | .timeout | .networkError => False
  | .raises e' => e' = e
  | .response status body =>
      status < 400 ∧ strip body ≠ [] ∧ parse body = .error e ∧ e.isInstance [parseError] = false

namespace GoogleNewsRssProvider

variable {p : GoogleNewsRssProvider} {parse : Text → Except Exn Element}
  {answer : Text → FeedAnswer} {symbol : Text}

theorem recentHeadlines_ok {headlines : List Text}
    (h : p.recentHeadlines parse answer symbol = .ok headlines) :
    ∃ url, p.buildUrl symbol = .ok url ∧
      Shortlist maxHeadlines headlines ((answer url).titles parse) := by
  obtain ⟨url, hurl, h⟩ := bind_eq_ok_iff.mp h
  refine ⟨url, hurl, ?_⟩
  cases hanswer : answer url with
  | timeout =>
      rw [hanswer] at h
      cases h
      exact Shortlist.nil _
  | networkError =>
      rw [hanswer] at h
      cases h
      exact Shortlist.nil _
  | raises e =>
      rw [hanswer] at h
      cases h
  | response status body =>
      rw [hanswer] at h
      change (if 400 ≤ status then _ else _) = _ at h
      split at h
      · rename_i hstatus
        cases h
        rw [FeedAnswer.titles, FeedAnswer.document?, if_pos (.inl hstatus)]
        exact Shortlist.nil _
      · rename_i hstatus
        exact parseRssTitles_ok (by decide) h (Nat.lt_of_not_le hstatus)

/-- A call raises what the URL, the request or the reading of the document raises, a document that
is none apart; else its headlines are titles of items of the document at its URL, up to eight in
their order, and none only where no item has a title. -/
theorem recentHeadlines_answers (p : GoogleNewsRssProvider) (parse : Text → Except Exn Element)
    (answer : Text → FeedAnswer) (symbol : Text) :
    (∀ e, p.recentHeadlines parse answer symbol = .error e ↔
      p.buildUrl symbol = .error e ∨
        ∃ url, p.buildUrl symbol = .ok url ∧ (answer url).Fails parse e) ∧
      ∀ headlines, p.recentHeadlines parse answer symbol = .ok headlines →
        (∀ title ∈ headlines, title ≠ [] ∧ IsTrimmed title) ∧
          ∃ url, p.buildUrl symbol = .ok url ∧
            Shortlist maxHeadlines headlines ((answer url).titles parse) := by
  refine ⟨?_, ?_⟩
  · intro e
    cases hurl : p.buildUrl symbol with
    | error e' =>
        rw [recentHeadlines, hurl]
        constructor
        · intro h
          cases h
          exact .inl rfl
        · rintro (h | ⟨url, h, -⟩)
          · exact congrArg _ (Except.error.inj h)
          · cases h
    | ok url =>
        rw [recentHeadlines, hurl, ok_bind]
        refine Iff.trans ?_ (Iff.symm (or_iff_right nofun))
        have hhere : (∃ url', Except.ok url = (Except.ok url' : Except Exn Text) ∧
            (answer url').Fails parse e) ↔ (answer url).Fails parse e := by
          constructor
          · rintro ⟨url', heq, h⟩
            cases heq
            exact h
          · exact fun h => ⟨url, rfl, h⟩
        rw [hhere]
        cases hanswer : answer url with
        | timeout => exact iff_of_false nofun id
        | networkError => exact iff_of_false nofun id
        | raises e' => exact Except.error.injEq _ _ |> iff_of_eq
        | response status body =>
            change (if 400 ≤ status then _ else _) = _ ↔ _
            split
            · rename_i hstatus
              exact iff_of_false nofun fun h => absurd hstatus (Nat.not_le.mpr h.1)
            · rename_i hstatus
              rw [parseRssTitles_error_iff]
              exact (and_iff_right (Nat.lt_of_not_le hstatus)).symm
  · intro headlines h
    obtain ⟨url, hurl, hlist⟩ := recentHeadlines_ok h
    refine ⟨?_, url, hurl, hlist⟩
    intro title htitle
    exact FeedAnswer.mem_titles (hlist.sublist.subset htitle)

end GoogleNewsRssProvider

end NexusBackend
