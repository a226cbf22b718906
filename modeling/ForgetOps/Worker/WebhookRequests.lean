import ForgetOps.Worker.WebhookDestination

/-
  The requests of a webhook (`apps/worker/src/security/webhook-destination.ts`).

  `Followed` is the chain of URLs: the destination, and where each answer redirects, as long as they
  pass the check. Requests are sent to these and to no others. They stay outside of the internal
  networks exactly when no name in the chain resolves to a missed address: `guarded_iff`.
-/

namespace ForgetOps.Webhook

open IpAddress

variable {o : Outside} {options : Options} {destination : String}

/-- What a check that passes has seen. -/
theorem assertSafeWebhookUrl_ok {value : String} {url : Url}
    (h : assertSafeWebhookUrl o options value = .ok url) :
    url.protocol = "https:" ∧ url.username = "" ∧ url.password = "" ∧
      ∀ records, o.lookup url.hostname = some records → options.allowPrivate = false →
        ∀ address ∈ records, isPrivateAddress address.toList = false := by
  unfold assertSafeWebhookUrl at h
  split at h
  · cases h
  · next url' hparse =>
    split_ifs at h with hprotocol hparts hhost
    split at h
    · cases h
    · next records hlookup =>
      split_ifs at h with hprivate
      obtain rfl := Except.ok.inj h
      rw [not_or, not_or, not_not, not_not] at hparts
      refine ⟨not_not.mp hprotocol, hparts.2.1, hparts.2.2, ?_⟩
      intro records' hlookup' hallow address haddress
      obtain rfl := Option.some.inj (hlookup.symm.trans hlookup')
      by_contra hbad
      refine hprivate ⟨by simp [hallow], ?_⟩
      rw [List.any_eq_true]
      exact ⟨address, haddress, Bool.eq_true_of_not_eq_false hbad⟩

variable (o options destination) in
/-- The URLs of the chain, with their numbers: the destination, and the targets of the redirects,
    each of which has passed the check. -/
inductive Followed : Nat → Url → Prop
  | first {url : Url} : assertSafeWebhookUrl o options destination = .ok url → Followed 0 url
  | next {i : Nat} {url next : Url} {response : Response} {target : String} :
      Followed i url → i < 3 → o.respond i url = some response → response.status ∈ redirects →
      response.location.getD "" ≠ "" → o.resolveUrl (response.location.getD "") url = some target →
      assertSafeWebhookUrl o options target = .ok next → Followed (i + 1) next

theorem Followed.unique {i : Nat} {url url' : Url} (h : Followed o options destination i url)
    (h' : Followed o options destination i url') : url = url' := by
  induction h generalizing url' with
  | first hurl =>
    cases h' with
    | first hurl' => exact Except.ok.inj (hurl.symm.trans hurl')
  | next _ _ hrespond _ _ hresolve hnext ih =>
    cases h' with
    | next hfollowed' _ hrespond' _ _ hresolve' hnext' =>
      obtain rfl := ih hfollowed'
      obtain rfl := Option.some.inj (hrespond.symm.trans hrespond')
      obtain rfl := Option.some.inj (hresolve.symm.trans hresolve')
      exact Except.ok.inj (hnext.symm.trans hnext')

theorem Followed.le {i : Nat} {url : Url} (h : Followed o options destination i url) : i ≤ 3 := by
  cases h with
  | first _ => exact Nat.zero_le _
  | next _ hlt _ _ _ _ _ => exact hlt

/-- What comes before a URL of the chain is in the chain. -/
theorem Followed.before {i : Nat} {url : Url} (h : Followed o options destination i url) {j : Nat}
    (hj : j ≤ i) : ∃ url', Followed o options destination j url' := by
  induction h with
  | first hurl =>
    obtain rfl := Nat.le_zero.mp hj
    exact ⟨_, .first hurl⟩
  | @next i url next response target hfollowed hlt hrespond hstatus hlocation hresolve hnext ih =>
    rcases Nat.lt_or_ge i j with hgt | hle
    · obtain rfl : j = i + 1 := by omega
      exact ⟨_, .next hfollowed hlt hrespond hstatus hlocation hresolve hnext⟩
    · exact ih hle

/-- The chain ends at a URL whose answer leads to none that passes. -/
theorem Followed.last {i : Nat} {url : Url} (h : Followed o options destination i url)
    (hstop : ∀ response target next, i < 3 → o.respond i url = some response →
      response.status ∈ redirects → response.location.getD "" ≠ "" →
      o.resolveUrl (response.location.getD "") url = some target →
      assertSafeWebhookUrl o options target ≠ .ok next) :
    ∀ url', ¬ Followed o options destination (i + 1) url' := by
  intro url' h'
  cases h' with
  | next hfollowed hlt hrespond hstatus hlocation hresolve hnext =>
    obtain rfl := h.unique hfollowed
    exact hstop _ _ _ hlt hrespond hstatus hlocation hresolve hnext

/-- The loop stops at a URL, or it goes on to the next one of the chain. -/
theorem send_cases {left : Nat} (hleft : left ≤ 3) {url : Url}
    (h : Followed o options destination (3 - left) url) :
    ((send o options left url).2 = [url] ∧
      ∀ url', ¬ Followed o options destination (3 - left + 1) url') ∨
    ∃ left' next, left = left' + 1 ∧ Followed o options destination (3 - left') next ∧
      (send o options left url).2 = url :: (send o options left' next).2 := by
  rw [send.eq_def]
  dsimp only
  cases hrespond : o.respond (3 - left) url with
  | none =>
    refine .inl ⟨rfl, h.last ?_⟩
    intro response target next _ hrespond'
    rw [hrespond] at hrespond'
    cases hrespond'
  | some response =>
    dsimp only
    by_cases hstatus : response.status ∈ redirects
    · rw [if_neg (not_not.mpr hstatus)]
      cases left with
      | zero =>
        refine .inl ⟨rfl, h.last ?_⟩
        intro _ _ _ hlt
        exact absurd hlt (lt_irrefl 3)
      | succ left =>
        dsimp only
        by_cases hlocation : response.location.getD "" = ""
        · rw [if_pos hlocation]
          refine .inl ⟨rfl, h.last ?_⟩
          intro response' _ _ _ hrespond' _ hlocation'
          obtain rfl := Option.some.inj (hrespond.symm.trans hrespond')
          exact absurd hlocation hlocation'
        · rw [if_neg hlocation]
          cases hresolve : o.resolveUrl (response.location.getD "") url with
          | none =>
            refine .inl ⟨rfl, h.last ?_⟩
            intro response' _ _ _ hrespond' _ _ hresolve'
            obtain rfl := Option.some.inj (hrespond.symm.trans hrespond')
            rw [hresolve] at hresolve'
            cases hresolve'
          | some target =>
            dsimp only
            cases hnext : assertSafeWebhookUrl o options target with
            | error e =>
              refine .inl ⟨rfl, h.last ?_⟩
              intro response' _ _ _ hrespond' _ _ hresolve' hnext'
              obtain rfl := Option.some.inj (hrespond.symm.trans hrespond')
              obtain rfl := Option.some.inj (hresolve.symm.trans hresolve')
              rw [hnext] at hnext'
              cases hnext'
            | ok next =>
              have hi : 3 - left = 3 - (left + 1) + 1 := by omega
              refine .inr ⟨left, next, rfl, ?_, rfl⟩
              rw [hi]
              exact .next h (by omega) hrespond hstatus hlocation hresolve hnext
    · rw [if_pos hstatus]
      refine .inl ⟨?_, h.last ?_⟩
      · cases response.byteLength with
        | none => rfl
        | some length =>
          dsimp only
          split_ifs <;> rfl
      · intro response' _ _ _ hrespond' hstatus'
        obtain rfl := Option.some.inj (hrespond.symm.trans hrespond')
        exact absurd hstatus' hstatus

/-- From a URL of the chain on, requests are sent to the chain. -/
theorem mem_send_iff {left : Nat} (hleft : left ≤ 3) {url : Url}
    (h : Followed o options destination (3 - left) url) (url' : Url) :
    url' ∈ (send o options left url).2 ↔
      ∃ i, 3 - left ≤ i ∧ Followed o options destination i url' := by
  induction left generalizing url with
  | zero =>
    rcases send_cases hleft h with ⟨hsent, hlast⟩ | ⟨left', next, hleft', -⟩
    · rw [hsent, List.mem_singleton]
      constructor
      · rintro rfl
        exact ⟨_, le_refl _, h⟩
      · rintro ⟨i, hi, hfollowed⟩
        obtain rfl : i = 3 := le_antisymm hfollowed.le hi
        exact hfollowed.unique h
    · omega
  | succ left ih =>
    rcases send_cases hleft h with ⟨hsent, hlast⟩ | ⟨left', next, hleft', hnext, hsent⟩
    · rw [hsent, List.mem_singleton]
      constructor
      · rintro rfl
        exact ⟨_, le_refl _, h⟩
      · rintro ⟨i, hi, hfollowed⟩
        rcases eq_or_lt_of_le hi with rfl | hlt
        · exact hfollowed.unique h
        · obtain ⟨url'', hurl''⟩ := hfollowed.before hlt
          exact absurd hurl'' (hlast url'')
    · obtain rfl : left = left' := by omega
      rw [hsent, List.mem_cons, ih (by omega) hnext]
      constructor
      · rintro (rfl | ⟨i, hi, hfollowed⟩)
        · exact ⟨_, le_refl _, h⟩
        · exact ⟨i, by omega, hfollowed⟩
      · rintro ⟨i, hi, hfollowed⟩
        rcases eq_or_lt_of_le hi with rfl | hlt
        · exact .inl (hfollowed.unique h)
        · exact .inr ⟨i, by omega, hfollowed⟩

theorem length_send (left : Nat) (url : Url) : (send o options left url).2.length ≤ left + 1 := by
  induction left generalizing url with
  | zero =>
    rw [send.eq_def]
    dsimp only
    repeat' split
    all_goals exact le_refl _
  | succ left ih =>
    rw [send.eq_def]
    dsimp only
    repeat' split
    all_goals first | exact Nat.succ_le_succ (ih _) | exact Nat.succ_le_succ (Nat.zero_le _)

/-- Requests are sent to the URLs of the chain, and to no others. -/
theorem mem_postWebhook_iff (url : Url) :
    url ∈ (postWebhook o options destination).2 ↔ ∃ i, Followed o options destination i url := by
  unfold postWebhook
  cases hfirst : assertSafeWebhookUrl o options destination with
  | error e =>
    refine iff_of_false List.not_mem_nil ?_
    rintro ⟨i, hfollowed⟩
    obtain ⟨url', hurl'⟩ := hfollowed.before (Nat.zero_le i)
    cases hurl' with
    | first hurl' =>
      rw [hfirst] at hurl'
      cases hurl'
  | ok first =>
    have hstart : Followed o options destination (3 - 3) first := .first hfirst
    dsimp only
    rw [mem_send_iff (le_refl 3) hstart]
    exact exists_congr fun i => and_iff_right (Nat.zero_le i)

theorem length_postWebhook : (postWebhook o options destination).2.length ≤ 4 := by
  unfold postWebhook
  cases assertSafeWebhookUrl o options destination with
  | error e => exact Nat.zero_le _
  | ok url => exact length_send 3 url

theorem Followed.checked {i : Nat} {url : Url} (h : Followed o options destination i url) :
    ∃ value, assertSafeWebhookUrl o options value = .ok url := by
  cases h with
  | first hurl => exact ⟨destination, hurl⟩
  | next _ _ _ _ _ _ hnext => exact ⟨_, hnext⟩

/-- What is promised of the requests of one webhook. -/
structure Guarded (o : Outside) (options : Options) (destination : String) : Prop where
  https : ∀ url ∈ (postWebhook o options destination).2,
    url.protocol = "https:" ∧ url.username = "" ∧ url.password = ""
  routable : ∀ url ∈ (postWebhook o options destination).2, ∀ records,
    o.lookup url.hostname = some records → ∀ address ∈ records, Routable address.toList
  few : (postWebhook o options destination).2.length ≤ 4
  checked : ∀ url ∈ (postWebhook o options destination).2,
    ∃ value, assertSafeWebhookUrl o options value = .ok url

/-- Where private addresses are not allowed, the requests stay outside of the internal networks
    exactly when no name in the chain has a missed address. -/
theorem guarded_iff (o : Outside) (maxResponseBytes : Nat) (destination : String) :
    Guarded o ⟨maxResponseBytes, false⟩ destination ↔
      ∀ i url, Followed o ⟨maxResponseBytes, false⟩ destination i url →
        ∀ records, o.lookup url.hostname = some records →
          ∀ address ∈ records, ¬ Missed address.toList := by
  have hroutable : ∀ i url, Followed o ⟨maxResponseBytes, false⟩ destination i url →
      ∀ records, o.lookup url.hostname = some records → ∀ address ∈ records,
        (Routable address.toList ↔ ¬ Missed address.toList) := by
    intro i url hfollowed records hlookup address haddress
    obtain ⟨value, hvalue⟩ := hfollowed.checked
    obtain ⟨-, -, -, hrecords⟩ := assertSafeWebhookUrl_ok hvalue
    exact routable_iff (hrecords records hlookup rfl address haddress)
  constructor
  · intro h i url hfollowed records hlookup address haddress
    have hsent := (mem_postWebhook_iff url).mpr ⟨i, hfollowed⟩
    have hgood := h.routable url hsent records hlookup address haddress
    exact (hroutable i url hfollowed records hlookup address haddress).mp hgood
  · intro h
    refine { https := ?_, routable := ?_, few := length_postWebhook, checked := ?_ }
    · intro url hsent
      obtain ⟨i, hfollowed⟩ := (mem_postWebhook_iff url).mp hsent
      obtain ⟨value, hvalue⟩ := hfollowed.checked
      obtain ⟨hprotocol, husername, hpassword, -⟩ := assertSafeWebhookUrl_ok hvalue
      exact ⟨hprotocol, husername, hpassword⟩
    · intro url hsent records hlookup address haddress
      obtain ⟨i, hfollowed⟩ := (mem_postWebhook_iff url).mp hsent
      have hmissed := h i url hfollowed records hlookup address haddress
      exact (hroutable i url hfollowed records hlookup address haddress).mpr hmissed
    · intro url hsent
      obtain ⟨i, hfollowed⟩ := (mem_postWebhook_iff url).mp hsent
      exact hfollowed.checked

/-- A name that resolves to the loopback address as IPv4 in IPv6. -/
def mappedLoopback : Outside where
  parseUrl value := some ⟨"https:", "", "", "hooks.example.com", value⟩
  resolveUrl location _ := some location
  lookup _ := some ["::ffff:127.0.0.1"]
  respond _ _ := some ⟨200, none, some 0⟩

theorem reaches_loopback :
    ¬ Guarded mappedLoopback .default "https://hooks.example.com/forgetops" := by
  intro h
  have hsent : (⟨"https:", "", "", "hooks.example.com", "https://hooks.example.com/forgetops"⟩ : Url) ∈
      (postWebhook mappedLoopback .default "https://hooks.example.com/forgetops").2 := by
    decide +kernel
  have h4 : readIpv4 "::ffff:127.0.0.1".toList = none := by decide +kernel
  have h6 : readIpv6 "::ffff:127.0.0.1".toList = some 0xffff7f000001 := by decide +kernel
  rcases h.routable _ hsent _ rfl _ List.mem_cons_self with ⟨n, hread, -⟩ | ⟨n, hread, hglobal⟩
  · rw [h4] at hread
    cases hread
  · obtain rfl := Option.some.inj (h6.symm.trans hread)
    revert hglobal
    decide +kernel

end ForgetOps.Webhook
