import Isnad.Debate.Account

/-! # What a role contributes to a round -/

namespace Isnad.Debate

/-- The body of an output. Only the arbiter's open challenges decide whether there is consensus. -/
structure Content where
  summary : String
  position : Option String
  unresolved : List String
  details : OrderedJson
deriving DecidableEq, Repr

namespace Content

def layout : Json.Layout := .of ["summary"] ["position", "unresolved_challenges", "details"]

open Json in
def decode : Decoder Content := fun w => do
  let f ← layout.read w
  let details ← f.orElse "details" .json .null
  let position ← f.option "position" .string
  let summary ← f.required "summary" .string
  let unresolved ← f.orElse "unresolved_challenges" (.list .string) []
  pure { summary, position, unresolved, details }

open Json in
def toJson (c : Content) : Json :=
  object [("summary", .str c.summary), ("position", ofOption .str c.position),
    ("unresolved_challenges", ofStrings c.unresolved), ("details", c.details.toJson)]

end Content

structure Output where
  role : Role
  kind : String
  content : Content
  account : Account
deriving DecidableEq, Repr

namespace Output

/-- The stance that the output declares. -/
def position (o : Output) : Option String := o.content.position

def layout : Json.Layout := .of ["role", "output_type", "content", "muhasabah"] []

open Json in
def decode : Decoder Output := fun w => do
  let f ← layout.read w
  let content ← f.required "content" Content.decode
  let account ← f.required "muhasabah" Account.decode
  let kind ← f.required "output_type" .string
  let role ← f.required "role" .label
  pure { role, kind, content, account }

open Json in
def toJson (o : Output) : Json :=
  object [("role", ofLabel o.role), ("output_type", .str o.kind), ("content", o.content.toJson),
    ("muhasabah", o.account.toJson)]

end Output

/-- What a debate is about. -/
structure Context where
  id : String
  subject : String
  claims : List String
  details : OrderedJson
deriving DecidableEq, Repr

namespace Context

def layout : Json.Layout := .of ["debate_id", "subject"] ["claim_ids", "details"]

open Json in
def decode : Decoder Context := fun w => do
  let f ← layout.read w
  let claims ← f.orElse "claim_ids" (.list .string) []
  let id ← f.required "debate_id" .string
  let details ← f.orElse "details" .json .null
  let subject ← f.required "subject" .string
  pure { id, subject, claims, details }

open Json in
def toJson (c : Context) : Json :=
  object [("debate_id", .str c.id), ("subject", .str c.subject), ("claim_ids", ofStrings c.claims),
    ("details", c.details.toJson)]

end Context
end Isnad.Debate
