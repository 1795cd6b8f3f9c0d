import SecureGateway.Proxy.ResponseHeaders

/-!
# Repeated headers

Both filters build dictionaries, which hold one value for a name. Of the repeated lines of a
request the last value goes upstream; the repeated `Set-Cookie` lines of a response arrive
joined, as one.
-/
namespace SecureGateway.Gateway

open Interleaving Proxy Resilience Python

section Request

variable {cfg : Config} {http : HttpRequest}

theorem mem_outgoingHeaders_iff {l : String × String}
    (h : l ∈ unblockedLines cfg.unicode http.headers) :
    l ∈ outgoingHeaders cfg http ↔ l ∈ Dict.ofPairs (unblockedLines cfg.unicode http.headers) := by
  have hblocked := of_decide_eq_true (List.mem_filter.mp h).2
  have hnot : ∀ e ∈ gatewayHeaders cfg http, e.1 ≠ l.1 := by
    intro e he heq
    have hname := gatewayName_of_mem cfg http he
    rw [heq] at hname
    apply hblocked
    left
    rw [lower_gatewayName _ hname]
    exact gatewayName_blocked hname
  rw [outgoingHeaders_eq, filterRequestHeaders_eq]
  constructor
  · intro hl
    rcases Dict.mem_of_mem_update hl with hl | ⟨hl, -⟩
    · exact (hnot l hl rfl).elim
    · exact hl
  · intro hl
    refine Dict.mem_update_left hl fun hkey => ?_
    obtain ⟨e, he, heq⟩ := List.mem_map.mp hkey
    exact hnot e he heq

/-- Every line that is not blocked is sent where namesakes among them agree. -/
theorem unblocked_sent_iff :
    (∀ l ∈ http.headers, ¬ BlockedInRequest cfg.unicode http.headers l.1 →
      l ∈ outgoingHeaders cfg http) ↔
    ∀ a ∈ unblockedLines cfg.unicode http.headers,
      ∀ b ∈ unblockedLines cfg.unicode http.headers, a.1 = b.1 → a.2 = b.2 := by
  rw [← Dict.forall_mem_ofPairs_iff]
  constructor
  · intro h l hl
    have hline := List.mem_filter.mp hl
    exact (mem_outgoingHeaders_iff hl).mp (h l hline.1 (of_decide_eq_true hline.2))
  · intro h l hl hblocked
    have hline : l ∈ unblockedLines cfg.unicode http.headers :=
      List.mem_filter.mpr ⟨hl, decide_eq_true hblocked⟩
    exact (mem_outgoingHeaders_iff hline).mpr (h l hline)

end Request

section Response

variable (u : Unicode)

/-- The `Set-Cookie` lines, under their names in lower case. -/
def cookieLines (lines : List (String × String)) : List (String × String) :=
  (lines.map fun l => (l.1.toLower, l.2)).filter fun l => u.lower l.1 = "set-cookie"

/-- Each `Set-Cookie` line of `lines` is one of the client's. -/
def CookiesDelivered (lines : List (String × String)) (headers : Dict) : Prop :=
  ((cookieLines u lines).map Prod.snd).Subperm
    (((deliveredLines u headers).filter fun l => l.1 = "set-cookie").map Prod.snd)

variable {u} {lines : List (String × String)}

theorem valuesOf_eq (name : String) :
    Httpx.valuesOf lines name =
      ((lines.map fun l => (l.1.toLower, l.2)).filter fun l => l.1 = name).map Prod.snd := by
  rw [List.filter_map, List.map_map]
  rfl

/-- The values of a cookie line without a namesake: its own. -/
theorem valuesOf_cookieLine (hnodup : (Dict.keys (cookieLines u lines)).Nodup)
    {l : String × String} (hl : l ∈ cookieLines u lines) :
    Httpx.valuesOf lines l.1 = [l.2] := by
  have hcookie := of_decide_eq_true (List.mem_filter.mp hl).2
  have hfilter : (lines.map fun l => (l.1.toLower, l.2)).filter (fun x => x.1 = l.1) =
      (cookieLines u lines).filter fun x => x.1 = l.1 := by
    rw [cookieLines, List.filter_filter]
    refine List.filter_congr fun x _ => ?_
    by_cases hx : x.1 = l.1
    · simp [hx, hcookie]
    · simp [hx]
  rw [valuesOf_eq, hfilter, Dict.filter_eq_singleton hnodup hl (decide_eq_true rfl)
    fun y _ hy => of_decide_eq_true hy]
  rfl

variable {cfg : Config} {decision : RateLimit.RateLimitDecision}

/-- The entries that reach the client as `Set-Cookie` lines. -/
theorem mem_cookieEntries {x : String × String} :
    x ∈ (responseHeaders cfg (Httpx.items lines) decision).filter
        (fun e => cfg.unicode.lower e.1 = "set-cookie") ↔
      x ∈ Httpx.items lines ∧ cfg.unicode.lower x.1 = "set-cookie" ∧
        ¬ ListedInConnection cfg.unicode (Httpx.items lines) "set-cookie" := by
  rw [List.mem_filter, mem_responseHeaders, decide_eq_true_eq]
  have hfree : "set-cookie" ∉ blockedResponseNames := by decide +kernel
  constructor
  · rintro ⟨hx | ⟨hx, hblocked⟩, hcookie⟩
    · have hkey := (keys_buildRateLimitHeaders_sublist decision).subset (List.mem_map_of_mem hx)
      rw [lower_rateLimitKey _ hkey] at hcookie
      have hnone : ∀ k ∈ rateLimitKeys, k.toLower ≠ "set-cookie" := by decide +kernel
      exact (hnone _ hkey hcookie).elim
    · rw [BlockedInResponse, hcookie, not_or] at hblocked
      exact ⟨hx, hcookie, hblocked.2⟩
  · rintro ⟨hx, hcookie, hlisted⟩
    refine ⟨Or.inr ⟨hx, ?_⟩, hcookie⟩
    rw [BlockedInResponse, hcookie, not_or]
    exact ⟨hfree, hlisted⟩

theorem cookieLine_key {x : String × String} (hx : x ∈ Httpx.items lines)
    (hcookie : u.lower x.1 = "set-cookie") : x.1 ∈ Dict.keys (cookieLines u lines) := by
  obtain ⟨⟨l, hl, hlx⟩, -⟩ := Httpx.mem_items.mp hx
  refine List.mem_map.mpr ⟨(l.1.toLower, l.2), List.mem_filter.mpr ⟨?_, ?_⟩, hlx⟩
  · exact List.mem_map_of_mem hl
  · exact decide_eq_true (hlx ▸ hcookie)

/-- Every cookie arrives where the response has no two cookie lines of one name and does not
take cookies for a matter of the connection. -/
theorem cookiesDelivered_iff :
    CookiesDelivered cfg.unicode lines (responseHeaders cfg (Httpx.items lines) decision) ↔
      (Dict.keys (cookieLines cfg.unicode lines)).Nodup ∧
        (cookieLines cfg.unicode lines ≠ [] →
          ¬ ListedInConnection cfg.unicode (Httpx.items lines) "set-cookie") := by
  rw [CookiesDelivered, filter_deliveredLines, deliveredLines, List.map_map]
  change (List.map Prod.snd _).Subperm (List.map Prod.snd _) ↔ _
  generalize hentries : (responseHeaders cfg (Httpx.items lines) decision).filter
    (fun e => cfg.unicode.lower e.1 = "set-cookie") = entries
  have hmem : ∀ x, x ∈ entries ↔ x ∈ Httpx.items lines ∧
      cfg.unicode.lower x.1 = "set-cookie" ∧
        ¬ ListedInConnection cfg.unicode (Httpx.items lines) "set-cookie" := by
    intro x
    rw [← hentries]
    exact mem_cookieEntries
  have hkeys : (Dict.keys entries).Nodup := by
    rw [← hentries]
    exact (nodup_responseHeaders _).sublist (List.filter_sublist.map _)
  constructor
  · intro hsub
    have hlen := hsub.length_le
    rw [List.length_map, List.length_map] at hlen
    constructor
    · -- The entries have distinct names, and there are as many of them as lines.
      have hsubset : Dict.keys entries ⊆ Dict.keys (cookieLines cfg.unicode lines) := by
        intro key hkey
        obtain ⟨x, hx, rfl⟩ := List.mem_map.mp hkey
        exact cookieLine_key ((hmem x).mp hx).1 ((hmem x).mp hx).2.1
      have hperm := (List.subperm_of_subset hkeys hsubset).perm_of_length_le
        (by simpa [Dict.keys] using hlen)
      exact hperm.nodup_iff.mp hkeys
    · intro hne hlisted
      have hnone : entries = [] := by
        apply List.eq_nil_iff_forall_not_mem.mpr
        intro x hx
        exact ((hmem x).mp hx).2.2 hlisted
      rw [hnone, List.length_nil, Nat.le_zero, List.length_eq_zero_iff] at hlen
      exact hne hlen
  · rintro ⟨hnodup, hlisted⟩
    have hsubset : cookieLines cfg.unicode lines ⊆ entries := by
      intro l hl
      have hcookie := List.mem_filter.mp hl
      obtain ⟨line, hline, hlower⟩ := List.mem_map.mp hcookie.1
      have hname : line.1.toLower = l.1 := congrArg Prod.fst hlower
      refine (hmem l).mpr ⟨?_, of_decide_eq_true hcookie.2, hlisted (List.ne_nil_of_mem hl)⟩
      rw [Httpx.mem_items, valuesOf_cookieLine hnodup hl]
      exact ⟨⟨line, hline, hname⟩, by simp⟩
    obtain ⟨l, hperm, hsub⟩ := List.subperm_of_subset (List.Nodup.of_map _ hnodup) hsubset
    exact ⟨l.map Prod.snd, hperm.map Prod.snd, hsub.map Prod.snd⟩

end Response

def repeatingRequest : HttpRequest :=
  { localRequest "GET" none with headers := [("accept", "text/html"), ("accept", "text/plain")] }

def twoCookies : List (String × String) := [("Set-Cookie", "a=1"), ("Set-Cookie", "b=2")]

end SecureGateway.Gateway
