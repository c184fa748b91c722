import Renga.Access.Ceiling
import Renga.Agent.AtMostOnce
import Renga.Agent.Queries.SqlStatement
import Renga.Agent.Queue.Delivery
import Renga.Inventory.Currentness
import Renga.Inventory.VmPlacements
import Renga.Ipam.Allocator
import Renga.Ipam.SpaceMap
import Renga.Jobs.Authority
import Renga.Jobs.TerminalReports
import Renga.Power.Paths
import Renga.Reconciliation.Ownership
import Renga.Scim.Runs
import Renga.Topology.Adjacencies
import Renga.Topology.CableHistory
import Renga.Topology.VlanMemberships
import Renga.Ipam.RoutingDomains
import Renga.Dcim.Elevation
import Renga.Power.Readings
import Renga.Transfers.Levels
import Renga.Transfers.Lines
import Renga.Power.Correlation
import Renga.Transfers.Validation
import Renga.Agent.Deadline
import Renga.Agent.Queue.Names
