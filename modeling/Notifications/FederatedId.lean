/-! Ids that belong to a domain. -/
namespace Notifications

structure FederatedId where
  value : String
  domain : String
  deriving DecidableEq, Repr

/-- The id as one text; an id without a domain is shown by its value alone. -/
def FederatedId.display (id : FederatedId) : String :=
  if id.domain = "" then id.value else id.value ++ "@" ++ id.domain

end Notifications
