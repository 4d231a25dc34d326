import OData.Client.Prepared
import OData.Poll.Basic

namespace OData

open OData.Time

/-- The conversation that a poll of a query repeats. Only a GET can be polled; the query is compiled
once, before the first request. -/
def Client.subscription (client : Client) (params : RequestParams) :
    Session Request (Exchange Request (Except ClientError QueryResult)) := do
  if params.method ≠ .get then
    throw (.invalidParameters (.notSubscribable params.method))
  else
    let prepared ← client.prepare params
    return (prepared.fetch {}).run

/-- Polls a query, where there may be a runtime for the poll or none. -/
def Client.subscribeIn (client : Client) (hasRuntime : Bool) (params : RequestParams)
    (interval : Option Duration) : Session Request (Poll Request QueryResult) := do
  let conversation ← client.subscription params
  ExceptT.mk (pure (Poll.create hasRuntime conversation (interval.getD defaultPollInterval)))

def Client.subscribe (client : Client) (params : RequestParams) (interval : Option Duration) :
    Session Request (Poll Request QueryResult) :=
  client.subscribeIn true params interval

end OData
