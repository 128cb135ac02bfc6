import MqttLink.Wire.Feed
import MqttLink.Connection.Turn
import MqttLink.Settings.Load
import MqttLink.Roster
import MqttLink.Proofs.Exchange.Identifiers
import MqttLink.Proofs.Exchange.Operations
import MqttLink.Proofs.Exchange.Agreement
import MqttLink.Proofs.Exchange.Allocation
import MqttLink.Proofs.Exchange.Retransmission
import MqttLink.Proofs.Exchange.Independence
import MqttLink.Proofs.KeepAlive
import MqttLink.Proofs.Endpoint.Attempt
import MqttLink.Proofs.Endpoint.Moves
import MqttLink.Proofs.Endpoint.Inversion
import MqttLink.Proofs.Endpoint.History
import MqttLink.Proofs.Endpoint.Story
import MqttLink.Proofs.Endpoint.Incoming
import MqttLink.Proofs.Endpoint.Outgoing
import MqttLink.Proofs.Endpoint.Connack
import MqttLink.Proofs.Endpoint.Manual
import MqttLink.Proofs.Endpoint.AutoAck
import MqttLink.Proofs.Endpoint.Acknowledgments
import MqttLink.Proofs.Endpoint.Deadlines
import MqttLink.Proofs.Endpoint.Phases
import MqttLink.Proofs.Endpoint.Subscriptions
import MqttLink.Proofs.Endpoint.Replies
import MqttLink.Proofs.Endpoint.Will
import MqttLink.Proofs.Endpoint.Deferral
import MqttLink.Proofs.Endpoint.Carriage
import MqttLink.Proofs.Endpoint.Verdict
import MqttLink.Proofs.Endpoint.Forwarding
import MqttLink.Proofs.Wire.Field
import MqttLink.Proofs.Wire.Length
import MqttLink.Proofs.Wire.Layout
import MqttLink.Proofs.Wire.RoundTrip
import MqttLink.Proofs.Wire.Grammar
import MqttLink.Proofs.Wire.Accepted
import MqttLink.Proofs.Wire.Canonical
import MqttLink.Proofs.Wire.Chunks
import MqttLink.Proofs.Wire.Written
import MqttLink.Proofs.Connection.WorkOff
import MqttLink.Proofs.Connection.Course
import MqttLink.Proofs.Connection.Traffic
import MqttLink.Proofs.Connection.HeldBack
import MqttLink.Proofs.Connection.EndOfStream
import MqttLink.Proofs.Connection.Refinement
import MqttLink.Proofs.Connection.Delivery
import MqttLink.Proofs.Connection.Backpressure
import MqttLink.Proofs.Connection.Carriage
import MqttLink.Proofs.Connection.Desk
import MqttLink.Proofs.Connection.Calls
import MqttLink.Proofs.Settings.Substitution
import MqttLink.Proofs.Settings.Dialects
import MqttLink.Proofs.Settings.Keyed
import MqttLink.Proofs.Settings.Layers
import MqttLink.Proofs.Settings.Agreement
import MqttLink.Proofs.Wire.Cursor
import MqttLink.Proofs.Wire.InRange
import MqttLink.Proofs.Wire.Remaining
