import NotificationDelivery.Library.Runs
import NotificationDelivery.Library.Registry
import NotificationDelivery.Library.Table
import NotificationDelivery.Library.ConditionVariable
import NotificationDelivery.Pool.Deadlock
import NotificationDelivery.Pool.PooledSession
import NotificationDelivery.Breaker.HalfOpenProbe
import NotificationDelivery.Breaker.Recovery
import NotificationDelivery.Breaker.OpenWindow
import NotificationDelivery.Breaker.TripCondition
import NotificationDelivery.Breaker.SequentialCalls
import NotificationDelivery.Breaker.Outage
import NotificationDelivery.Service.Idempotency
import NotificationDelivery.Service.Connection
import NotificationDelivery.Service.LadderRuns
import NotificationDelivery.Service.AttemptCount
import NotificationDelivery.Service.AuditTrail
import NotificationDelivery.Service.RetryBudget
import NotificationDelivery.Service.DeliverySteps
import NotificationDelivery.Service.OnMessage
import NotificationDelivery.Service.OnRequest
import NotificationDelivery.Submission.Agreement
import NotificationDelivery.Service.DetailResponse
import NotificationDelivery.Service.AtRest
import NotificationDelivery.Service.Backoff
import NotificationDelivery.Service.Provenance
import NotificationDelivery.Deployment.Settlement
import NotificationDelivery.Deployment.Progress
import NotificationDelivery.Submission.Keys
import NotificationDelivery.Submission.Refinement
import NotificationDelivery.Dashboard.SendLock
import NotificationDelivery.Dashboard.LastResponse
import NotificationDelivery.Dashboard.Api
import NotificationDelivery.Service.Sources
