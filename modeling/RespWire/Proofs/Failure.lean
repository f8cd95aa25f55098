import Mathlib.Data.List.Basic
import RespWire.Failure

/-!
# Chains of causes

What is met on the way from an error to its source, from there to the source of that, and so on. A
folded failure leads to the failure that it was folded from and from there to every cause of that.
A failure around an error has a text of its own in front of the text of the error; a transparent
one has the text of the error and leads to what is beneath the error, so no text comes twice.
-/

namespace RespWire

variable {link below : Link} {texts : List String} {e : ClientFailure} {kind : AccessFailure.Kind}

/-! ### Chains -/

/-- The texts that are met by going from an error to its source until there is none. -/
inductive Meets : Link → List String → Prop where
  | root {link : Link} (h : link.source? = none) : Meets link []
  | source {link below : Link} {texts : List String} (h : link.source? = some below)
      (hbelow : Meets below texts) : Meets link (below.message :: texts)

lemma meets_of_source?_eq_none (h : link.source? = none) : Meets link texts ↔ texts = [] := by
  constructor
  · rintro (_ | ⟨hsource, _⟩)
    · rfl
    · rw [h] at hsource
      cases hsource
  · rintro rfl
    exact .root h

lemma meets_of_source?_eq_some (h : link.source? = some below) :
    Meets link texts ↔ ∃ rest, texts = below.message :: rest ∧ Meets below rest := by
  constructor
  · rintro (hroot | ⟨hsource, hbelow⟩)
    · rw [h] at hroot
      cases hroot
    · obtain rfl := Option.some.inj (hsource.symm.trans h)
      exact ⟨_, rfl, hbelow⟩
  · rintro ⟨rest, rfl, hbelow⟩
    exact .source h hbelow

/-- If only one list of texts is met from the source on, only one is met from the error on. -/
lemma meets_iff_of_source?_eq_some (h : link.source? = some below) {rest : List String}
    (hbelow : ∀ {texts}, Meets below texts ↔ texts = rest) :
    Meets link texts ↔ texts = below.message :: rest := by
  rw [meets_of_source?_eq_some h]
  simp only [hbelow, exists_eq_right]

/-- What is met depends on the source alone. -/
lemma meets_congr {link' : Link} (h : link.source? = link'.source?) :
    Meets link texts ↔ Meets link' texts := by
  cases hsource : link'.source? with
  | none => rw [meets_of_source?_eq_none (h.trans hsource), meets_of_source?_eq_none hsource]
  | some below => rw [meets_of_source?_eq_some (h.trans hsource), meets_of_source?_eq_some hsource]

/-! ### Errors of other libraries -/

namespace Cause

/-- The messages of an error and of its causes, its own first. -/
def messages (cause : Cause) : List String := cause.message :: cause.beneath

/-- A message put around an error adds one link. -/
lemma messages_wrap (cause : Cause) (message : String) :
    (cause.wrap message).messages = message :: cause.messages := rfl

lemma messages_foldl_wrap (cause : Cause) (around : List String) :
    (around.foldl wrap cause).messages = around.reverse ++ cause.messages := by
  induction around generalizing cause with
  | nil => rfl
  | cons message around ih =>
    rw [List.foldl_cons, ih, messages_wrap, List.reverse_cons, List.append_assoc]
    rfl

/-- Messages that were put around a root one after another are met from the last one on. -/
lemma messages_ofMessages (root : String) (around : List String) :
    (ofMessages root around).messages = (root :: around).reverse := by
  rw [ofMessages, messages_foldl_wrap, List.reverse_cons]
  rfl

end Cause

lemma meets_other (cause : Cause) : Meets (.other cause) texts ↔ texts = cause.beneath := by
  obtain ⟨message, beneath⟩ := cause
  induction beneath generalizing message texts with
  | nil => exact meets_of_source?_eq_none rfl
  | cons nearest beneath ih =>
    have hsource : (Link.other ⟨message, nearest :: beneath⟩).source? =
      some (.other ⟨nearest, beneath⟩) := rfl
    exact meets_iff_of_source?_eq_some hsource (ih nearest)

/-! ### Failures -/

lemma meets_reply (error : ReplyError) : Meets (.reply error) texts ↔ texts = [] :=
  meets_of_source?_eq_none rfl

lemma meets_client (e : ClientFailure) : Meets (.client e) texts ↔ texts = e.beneath := by
  cases e with
  | io cause =>
    have hsource : (Link.client (.io cause)).source? = some (.other cause) := rfl
    exact meets_iff_of_source?_eq_some hsource (meets_other cause)
  | reply error =>
    have hsource : (Link.client (.reply error)).source? = some (.reply error) := rfl
    exact meets_iff_of_source?_eq_some hsource (meets_reply error)
  | other cause =>
    -- the failure names the source of its cause as its own
    have hsource : (Link.client (.other cause)).source? = (Link.other cause).source? := rfl
    exact (meets_congr hsource).trans (meets_other cause)
  | connection | server | redirections | protocol => exact meets_of_source?_eq_none rfl

lemma meets_access (e : AccessFailure) : Meets (.access e) texts ↔ texts = e.beneath :=
  have hsource : (Link.access e).source? = some (.client e.source) := rfl
  meets_iff_of_source?_eq_some hsource (meets_client e.source)

/-- What a failure to access data tells: the opening of its kind, and its detail. -/
inductive AccessFailure.Tells : AccessFailure → String → Prop where
  | connection (detail : String) (source : ClientFailure) :
    Tells ⟨.connection, detail, source⟩ ("could not connect to the store: " ++ detail)
  | usage (detail : String) (source : ClientFailure) :
    Tells ⟨.usage, detail, source⟩ ("invalid data access API usage: " ++ detail)
  | redirections (detail : String) (source : ClientFailure) :
    Tells ⟨.redirections, detail, source⟩ ("too many cluster redirections: " ++ detail)
  | system (detail : String) (source : ClientFailure) :
    Tells ⟨.system, detail, source⟩ ("unexpected store error: " ++ detail)

lemma AccessFailure.tells_iff {e : AccessFailure} {text : String} :
    e.Tells text ↔ text = e.message := by
  constructor
  · rintro (_ | _ | _ | _) <;> rfl
  · rintro rfl
    obtain ⟨kind, detail, source⟩ := e
    cases kind with
    | connection => exact .connection detail source
    | usage => exact .usage detail source
    | redirections => exact .redirections detail source
    | system => exact .system detail source

/-- What a failure is folded into, the text of the failure, and the texts beneath it. -/
inductive Folds : ClientFailure → AccessFailure.Kind → String → List String → Prop where
  | io (cause : Cause) :
    Folds (.io cause) .connection ("I/O error: " ++ cause.message) cause.messages
  | connection (text : String) :
    Folds (.connection text) .connection ("connection error: " ++ text) []
  | server (text : String) : Folds (.server text) .usage ("server error: " ++ text) []
  | protocol (text : String) : Folds (.protocol text) .usage ("protocol error: " ++ text) []
  | redirections (text : String) :
    Folds (.redirections text) .redirections ("too many cluster redirections: " ++ text) []
  | reply (error : ReplyError) :
    Folds (.reply error) .system ("conversion error: " ++ error.message) [error.message]
  | other (cause : Cause) : Folds (.other cause) .system cause.message cause.beneath

lemma folds_iff {text : String} :
    Folds e kind text texts ↔ e.kind = kind ∧ text = e.message ∧ texts = e.beneath := by
  constructor
  · rintro (_ | _) <;> exact ⟨rfl, rfl, rfl⟩
  · rintro ⟨rfl, rfl, rfl⟩
    cases e <;> constructor

/-- A failure is folded into the kind that its variant tells, and stays the source of what it is
folded into. What that tells is the opening of its kind and the text of the failure. Going from it
to its source and on, one meets the text of the failure, then what the variant has beneath it, and
nothing else. If the failure is transparent, these are the messages of its cause, each once and the
one that was put around it last in front. -/
theorem causes_kept_by_folding :
    (∀ e : ClientFailure, e.toAccessFailure.source = e ∧ e.toAccessFailure.detail = e.message ∧
      ∀ text, e.toAccessFailure.Tells text ↔ text = e.toAccessFailure.message) ∧
    (∀ e kind text texts, Folds e kind text texts ↔
      e.toAccessFailure.kind = kind ∧ e.toAccessFailure.detail = text ∧
        Meets (.access e.toAccessFailure) (text :: texts)) ∧
    (∀ (e : AccessFailure) texts, Meets (.access e) texts ↔ texts = e.beneath) ∧
    (∀ cause texts, Meets (.access (ClientFailure.other cause).toAccessFailure) texts ↔
      texts = cause.messages) ∧
    ∀ root around texts,
      Meets (.access (ClientFailure.other (.ofMessages root around)).toAccessFailure) texts ↔
        texts = (root :: around).reverse := by
  have hother (cause : Cause) (texts : List String) :
      Meets (.access (ClientFailure.other cause).toAccessFailure) texts ↔ texts = cause.messages :=
    meets_access _
  refine ⟨fun e => ⟨rfl, rfl, fun text => AccessFailure.tells_iff⟩, fun e kind text texts => ?_,
    fun e texts => meets_access e, hother, fun root around texts => ?_⟩
  · rw [folds_iff, meets_access, AccessFailure.beneath, List.cons.injEq]
    refine and_congr_right fun _ => ⟨?_, ?_⟩
    · rintro ⟨rfl, rfl⟩
      exact ⟨rfl, rfl, rfl⟩
    · rintro ⟨-, htext, htexts⟩
      exact ⟨htext, htexts⟩
  · rw [hother, Cause.messages_ofMessages]

/-- The message that was put around last is met once, as the text of the failure itself. -/
example : (ClientFailure.other (.ofMessages "refused" ["dial", "open"])).toAccessFailure.beneath =
    ["open", "dial", "refused"] := by
  decide

end RespWire
